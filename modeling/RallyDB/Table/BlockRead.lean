import RallyDB.Table.Lemmas.Format
import RallyDB.Util.DirectRead

/-!
# Blocks at any handle (`ReadBlock` in `table/format.cc`)
-/

namespace RallyDB.Table

open Util

variable {crc : Crc32c} {verify : Bool} {handle : BlockHandle} {file : PosixFile}

section

variable (h : handle.offset + (handle.size + kBlockTrailerSize) ≤ file.bytes.length)
include h

end

end RallyDB.Table
