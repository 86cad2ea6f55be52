import RallyDB.Lib.Lists
import RallyDB.Util.Lemmas.Containers

/-!
# What a sweep over the containers does
-/

namespace RallyDB.Util.MultiContainer

open Table Db List

section

variable {visit : Visit} {levels numbers : List Nat} {I E : Sweep → Prop}

variable (hvisit : ∀ i ∈ numbers, ∀ j ∈ levels, ∀ s, I s →
  E (visit.run i j s).sweep ∧ ((visit.run i j s).returnFlag = false → I (visit.run i j s).sweep))
  (hIE : ∀ s, I s → E s)
include hvisit hIE

lemma sweepLevels_rule {i : Nat} (hi : i ∈ numbers) {js : List Nat} (hjs : ∀ j ∈ js, j ∈ levels) {s : Sweep} (hs : I s) :
    E (sweepLevels visit i js s).1 ∧ ((sweepLevels visit i js s).2 = false → I (sweepLevels visit i js s).1) := by
  induction js generalizing s with
  | nil => exact ⟨hIE s hs, fun _ => hs⟩
  | cons j js ih =>
    obtain ⟨hE, hI⟩ := hvisit i hi j (hjs j mem_cons_self) s hs
    unfold sweepLevels
    dsimp only
    split_ifs with hret hbreak
    · exact ⟨hE, fun h => by cases h⟩
    · exact ⟨hE, fun _ => hI (by simpa using hret)⟩
    · exact ih (fun j hj => hjs j (mem_cons_of_mem _ hj)) (hI (by simpa using hret))

lemma sweepNumbers_rule {is : List Nat} (his : ∀ i ∈ is, i ∈ numbers) {s : Sweep} (hs : I s) :
    E (sweepNumbers visit levels is s).1 ∧
    ((sweepNumbers visit levels is s).2 = false → I (sweepNumbers visit levels is s).1) := by
  induction is generalizing s with
  | nil => exact ⟨hIE s hs, fun _ => hs⟩
  | cons i is ih =>
    obtain ⟨hE, hI⟩ :=
      sweepLevels_rule hvisit hIE (his i mem_cons_self) (fun j hj => hj) hs
    unfold sweepNumbers
    dsimp only
    split_ifs with hret
    · exact ⟨hE, fun h => by rw [hret] at h; cases h⟩
    · exact ih (fun i hi => his i (mem_cons_of_mem _ hi)) (hI (by simpa using hret))

lemma sweep_rule (hreset : ∀ s, I s → I { s with allSize := 0 }) {s : Sweep} (hs : I s) :
    E (sweep visit levels numbers s) := by
  fun_induction sweep visit levels numbers s with
  | case1 s r hret | case3 s r hret hmore => exact (sweepNumbers_rule hvisit hIE (fun i hi => hi) (hreset s hs)).1
  | case2 s r hret hmore ih =>
    exact ih ((sweepNumbers_rule hvisit hIE (fun i hi => hi) (hreset s hs)).2 (by simpa using hret))

end

/-! ## One container -/

variable {kind : SweepKind} {s : Sweep} {l : List Nat} {h : Nat} {c : ContainerHandle} {t : TableObject}

def sumOver (mc : MultiContainer) (g : TableObject → Int) (hs : List Nat) : Int :=
  (hs.map fun h => ((mc.table h).map fun p => g p.2).getD 0).sum

def eligible (kind : SweepKind) (mc : MultiContainer) (h : Nat) : Bool :=
  (mc.table h).any fun p => (kind.stop p.1 p.2).isNone

variable {mc : MultiContainer}

lemma eligible_iff : eligible kind mc h = true ↔ ∃ c t, mc.table h = some (c, t) ∧ kind.stop c t = none := by
  unfold eligible
  rw [Option.any_eq_true]
  constructor
  · rintro ⟨⟨c, t⟩, ht, hn⟩
    exact ⟨c, t, ht, Option.isNone_iff_eq_none.1 hn⟩
  · rintro ⟨c, t, ht, hn⟩
    exact ⟨(c, t), ht, Option.isNone_iff_eq_none.2 hn⟩

/-- What a sweep over the list does to the tables of an initial part of it. -/
structure Moved (kind : SweepKind) (l : List Nat) (s : Sweep) (r : SweepResult) : Prop where
  ok : r.sweep.container.Ok
  hashTable : r.sweep.container.hashTable = s.container.hashTable
  initial : r.moved <+: l.takeWhile (eligible kind s.container)
  reached : ∀ h ∈ r.moved, ∃ c t, s.container.table h = some (c, t) ∧ kind.stop c t = none
  tables : ∀ h, r.sweep.container.table h =
    if h ∈ r.moved then (s.container.table h).map fun p => (p.1, kind.update p.1.value p.2)
    else s.container.table h
  charger : r.sweep.container.charger = s.container.charger + s.container.sumOver kind.charge r.moved
  memory : r.sweep.memory = s.memory - s.container.sumOver (fun t => t.unitSize) r.moved
  returnFlag : r.returnFlag = decide (r.sweep.memory ≤ 0)
  -- the loop goes on while there is memory left
  all : 0 < r.sweep.memory → r.moved = l.takeWhile (eligible kind s.container)

structure Swept (kind : SweepKind) (l : List Nat) (s : Sweep) (r : SweepResult) : Prop extends Moved kind l s r where
  handles : r.sweep.container.handles = s.container.handles
  containers : r.sweep.container.containers = s.container.containers

structure SweepKind.Sound (kind : SweepKind) : Prop where
  order : ∀ l, (kind.order l).Perm l
  inRange : ∀ v t, t.InRange → (kind.update v t).InRange

lemma table_touch (hok : s.container.Ok) (ht : s.container.table h = some (c, t)) (k : Nat) :
    (s.touch kind c t).container.table k = if k = h then some (c, kind.update c.value t) else s.container.table k := by
  have hmod : (s.touch kind c t).container.table k = (s.container.modifyObject c.value (kind.update c.value)).table k := rfl
  rw [hmod, table_modifyObject]
  split_ifs with hk
  · rw [hk, ht]
    simp
  · cases hkt : s.container.table k with
    | none => rfl
    | some p =>
      obtain ⟨c', t'⟩ := p
      have hne : c'.value ≠ c.value := fun hv =>
        hk (hok.value_inj (mem_handles_of_table hkt) (mem_handles_of_table ht) hv)
      simp [hne]

lemma ok_touch (hkind : kind.Sound) (hok : s.container.Ok) : (s.touch kind c t).container.Ok := by
  have hmod : (s.container.modifyObject c.value (kind.update c.value)).Ok :=
    hok.modifyObject fun t' ht' => hkind.inRange _ _ (hok.inRange _ (Lib.mem_of_lookup ht'))
  exact { hmod with linked := hmod.linked }

lemma swept_idle (hok : s.container.Ok) (l : List Nat) (brk : Bool)
    (hl : l.takeWhile (eligible kind s.container) = []) : Swept kind l s ⟨s, [], s.memory ≤ 0, brk⟩ where
  ok := hok
  handles := rfl
  containers := rfl
  hashTable := rfl
  initial := ⟨_, nil_append _⟩
  reached := by simp
  tables := by simp
  charger := by simp [sumOver]
  memory := by simp [sumOver]
  returnFlag := rfl
  all := fun _ => hl.symm

lemma takeWhile_eligible_eq_nil {rest : List Nat} (hh : eligible kind mc h = false) :
    (h :: rest).takeWhile (eligible kind mc) = [] := by
  rw [takeWhile_cons, hh]
  rfl

lemma sumOver_cons (ht : mc.table h = some (c, t)) (g : TableObject → Int) (hs : List Nat) :
    mc.sumOver g (h :: hs) = g t + mc.sumOver g hs := by
  simp [sumOver, ht]

lemma sumOver_congr {mc' : MultiContainer} {hs : List Nat} (hh : ∀ h ∈ hs, mc'.table h = mc.table h)
    (g : TableObject → Int) : mc'.sumOver g hs = mc.sumOver g hs := by
  unfold sumOver
  rw [map_congr_left fun h hmem => by rw [hh h hmem]]

lemma Swept.sublist {r : SweepResult} (hr : Swept kind l s r) : r.moved.Sublist l :=
  hr.initial.sublist.trans (takeWhile_sublist _)

lemma sweepContainer_swept (hkind : kind.Sound) (hl : l.Nodup) (hok : s.container.Ok) :
    Swept kind l s (sweepContainer kind l s) := by
  induction l generalizing s with
  | nil => exact swept_idle hok _ _ rfl
  | cons h rest ih =>
    rw [nodup_cons] at hl
    unfold sweepContainer
    split
    · rename_i hnone
      refine swept_idle hok _ _ (takeWhile_eligible_eq_nil ?_)
      simp [eligible, hnone]
    · rename_i c t ht
      split
      · rename_i hstop
        refine swept_idle hok _ _ (takeWhile_eligible_eq_nil ?_)
        simp [eligible, ht, hstop]
      · rename_i hstop
        have hok' : (s.touch kind c t).container.Ok := ok_touch hkind hok
        have htables : ∀ k, (s.touch kind c t).container.table k =
            if k = h then some (c, kind.update c.value t) else s.container.table k := table_touch hok ht
        have hother : ∀ k ∈ rest, (s.touch kind c t).container.table k = s.container.table k := by
          intro k hk
          have hne : k ≠ h := fun he => hl.1 (he ▸ hk)
          rw [htables, if_neg hne]
        have helig : eligible kind s.container h = true := eligible_iff.2 ⟨c, t, ht, hstop⟩
        have hwhile : (h :: rest).takeWhile (eligible kind s.container) =
            h :: rest.takeWhile (eligible kind (s.touch kind c t).container) := by
          have hcongr : rest.takeWhile (eligible kind (s.touch kind c t).container) =
              rest.takeWhile (eligible kind s.container) :=
            Lib.takeWhile_congr fun k hk => by rw [eligible, hother k hk, eligible]
          rw [takeWhile_cons, helig, if_pos rfl, hcongr]
        dsimp only
        split_ifs with hmem
        · refine ⟨⟨hok', rfl, ⟨_, hwhile.symm⟩, ?_, fun k => ?_, ?_, ?_, ?_, ?_⟩, rfl, rfl⟩
          · simpa using ⟨c, t, ht, hstop⟩
          · rw [htables k]
            split_ifs with hk hin hin
            · rw [hk, ht]
              rfl
            · exact absurd (mem_singleton.2 hk) hin
            · exact absurd (mem_singleton.1 hin) hk
            · rfl
          · simp [sumOver, ht, Sweep.touch]
          · simp [sumOver, ht, Sweep.touch]
          · exact (decide_eq_true hmem).symm
          · exact fun hpos => absurd hpos (not_lt.2 hmem)
        · have hr := ih hl.2 hok'
          have hsub := hr.sublist
          have hother' : ∀ k ∈ (sweepContainer kind rest (s.touch kind c t)).moved,
              (s.touch kind c t).container.table k = s.container.table k := fun k hk => hother k (hsub.subset hk)
          refine ⟨⟨hr.ok, hr.hashTable, ?_, ?_, fun k => ?_, ?_, ?_, hr.returnFlag, fun hpos => ?_⟩, hr.handles,
            hr.containers⟩
          · rw [hwhile]
            exact (prefix_cons_inj h).2 hr.initial
          · intro k hk
            rcases mem_cons.1 hk with rfl | hk
            · exact ⟨c, t, ht, hstop⟩
            · obtain ⟨c', t', ht', hstop'⟩ := hr.reached k hk
              rw [hother' k hk] at ht'
              exact ⟨c', t', ht', hstop'⟩
          · rw [hr.tables k, htables k]
            by_cases hk : k = h
            · subst hk
              have hnot : k ∉ (sweepContainer kind rest (s.touch kind c t)).moved :=
                fun hin => hl.1 (hsub.subset hin)
              simp [hnot, ht]
            · simp [hk]
          · rw [hr.charger, sumOver_congr hother', sumOver_cons ht]
            simp only [Sweep.touch]
            omega
          · rw [hr.memory, sumOver_congr hother', sumOver_cons ht]
            simp only [Sweep.touch]
            omega
          · rw [hwhile, hr.all hpos]

structure Visited (kind : SweepKind) (i j n : Nat) (s : Sweep) (r : SweepResult) : Prop
    extends Moved kind (kind.order (s.container.containers (i, j))) s r where
  containers : r.sweep.container.containers =
    Lib.relinkAll s.container.containers (fun h => (s.container.levelOf h, n)) r.moved
  nodup : r.moved.Nodup
  listed : ∀ h ∈ r.moved, h ∈ s.container.containers (i, j)

lemma Ok.nodup_containers (hok : mc.Ok) (p : Nat × Nat) : (mc.containers p).Nodup := by
  rw [nodup_iff_count_le_one]
  exact fun a => (hok.atMostOnce a).count_le p

lemma containerVisit_visited (hkind : kind.Sound) (hok : s.container.Ok) {i : Nat} (j : Nat)
    (hn : kind.next i ≤ kAllFilterUnitsNumber) : Visited kind i j (kind.next i) s ((containerVisit kind).run i j s) := by
  have horder := hkind.order (s.container.containers (i, j))
  have hl : (kind.order (s.container.containers (i, j))).Nodup := horder.nodup_iff.2 (hok.nodup_containers _)
  have hr := sweepContainer_swept hkind hl hok
  set r := sweepContainer kind (kind.order (s.container.containers (i, j))) s with hrdef
  have hin : ∀ h ∈ r.moved, ∃ c, r.sweep.container.handles.lookup h = some c := by
    intro h hh
    obtain ⟨c, t, ht, -⟩ := hr.reached h hh
    rw [hr.handles]
    exact ⟨c, (table_eq_some.1 ht).1⟩
  have hrun : (containerVisit kind).run i j s = r.relink (kind.next i) := rfl
  have hlevel : r.sweep.container.levelOf = s.container.levelOf := by
    unfold levelOf
    rw [hr.handles]
  rw [hrun, SweepResult.relink, relink_eq hin hn, hr.containers, hlevel]
  have hnodup : r.moved.Nodup := hl.sublist hr.sublist
  refine ⟨⟨?_, hr.hashTable, hr.initial, hr.reached, hr.tables, hr.charger, hr.memory, hr.returnFlag, hr.all⟩, rfl, hnodup,
    fun h hh => horder.mem_iff.1 (hr.sublist.subset hh)⟩
  have hok' := hr.ok.relinkAll hnodup hin fun h => (s.container.levelOf h, kind.next i)
  rw [hr.containers] at hok'
  exact hok'

lemma Visited.of_moved_nil {i j n : Nat} {r : SweepResult} (hv : Visited kind i j n s r) (hm : r.moved = []) :
    r.sweep.container.containers = s.container.containers ∧ r.sweep.memory = s.memory ∧
    ∀ h, r.sweep.container.table h = s.container.table h := by
  refine ⟨?_, ?_, fun h => ?_⟩
  · rw [hv.containers, hm]
    rfl
  · rw [hv.memory, hm]
    simp [sumOver]
  · rw [hv.tables, hm, if_neg not_mem_nil]

end RallyDB.Util.MultiContainer
