/-
# A listing by groups

A request pages the groups of some rows, with the number of rows of each and their totals. It
then loads the rows of the groups of its page with a query of its own, and a loop puts them
into the lists of their groups. Rows are loaded by a key and grouped by all that is shown of
a group; where the key says the rest, the groups of all pages hold each row once, and each has
the rows that it counts (`grouped_pages`, `Grouped.items_perm`).
-/
import Restock.Lib.Listing
import Restock.Lib.SameEntries

namespace Listing

open Query

structure Grouping (R K H M : Type) where
  key : R → K
  head : R → H
  headKey : H → K
  headKey_head : ∀ row, headKey (head row) = key row
  amount : R → M

structure Group (R H M : Type) where
  head : H
  count : ℕ
  total : M
  items : List R

section Request

variable {R K H M : Type} [DecidableEq K] [DecidableEq H] [AddCommMonoid M] (g : Grouping R K H M)

/-- `GROUP BY` of the rows, with their number and totals. -/
def groupRows (rows : List R) :
    List (H × ℕ × M) := groupSum (rows.map fun row => (g.head row, (1, g.amount row)))

/-- The lists that the loop fills, one for each key of the page. -/
def itemsByKey (keys : List K) (rows : List R) : Dict K (List R) :=
  Dict.mergeAll (· ++ ·) (Dict.ofList (keys.map fun key => (key, [])))
    (rows.map fun row => (g.key row, [row]))

def pageEntries (plan : Plan) (columns : List (Column (H × ℕ × M))) (rows : List R)
    (pageNo size : ℕ) : List (H × ℕ × M) :=
  page (orderBy plan columns (groupRows g rows)) pageNo size

/-- The rows of the groups of a page. -/
def loadedRows (plan : Plan) (itemColumns : List (Column R)) (rows : List R)
    (entries : List (H × ℕ × M)) : List R :=
  orderBy plan itemColumns
    (rows.filter fun row => g.key row ∈ entries.map fun entry => g.headKey entry.1)

def fillGroups (entries : List (H × ℕ × M)) (loaded : List R) : List (Group R H M) :=
  let byKey := itemsByKey g (entries.map fun entry => g.headKey entry.1) loaded
  entries.map fun entry => ⟨entry.1, entry.2.1, entry.2.2, byKey.getD (g.headKey entry.1) []⟩

def groupPage (plan : Plan) (columns : List (Column (H × ℕ × M))) (itemColumns : List (Column R))
    (rows : List R) (pageNo size : ℕ) : List (Group R H M) :=
  let entries := pageEntries g plan columns rows pageNo size
  fillGroups g entries (loadedRows g plan itemColumns rows entries)

end Request

section Rows

variable {R K H M : Type} {g : Grouping R K H M} {rows : List R}

/-- The list of a key has its rows in the order of the query. -/
theorem getD_itemsByKey [DecidableEq K] (keys : List K) (rows : List R) (k : K) :
    (itemsByKey g keys rows).getD k [] = rows.filter fun row => g.key row = k := by
  have hstart : (Dict.ofList (keys.map fun key => (key, ([] : List R)))).getD k [] = [] := by
    unfold Dict.getD
    cases hget : (Dict.ofList (keys.map fun key => (key, ([] : List R)))).get? k with
    | none => rfl
    | some v =>
      have hmem : (k, v) ∈ keys.map fun key => (key, ([] : List R)) := by
        rcases Dict.get?_foldl_set _ _ hget with hmem | hempty
        · exact hmem
        · cases hempty
      obtain ⟨key, -, heq⟩ := List.mem_map.mp hmem
      exact (Prod.mk.inj heq).2.symm
  have hloop : ∀ (rows : List R) (o : Option (List R)),
      (Dict.combine (· ++ ·) o (Dict.valuesAt (rows.map fun row => (g.key row, [row])) k)).getD [] =
        o.getD [] ++ rows.filter fun row => g.key row = k := by
    intro rows
    induction rows with
    | nil =>
      intro o
      cases o <;> simp [Dict.valuesAt, Dict.combine]
    | cons row rows ih =>
      intro o
      by_cases hk : g.key row = k
      · have hcons := Dict.valuesAt_cons_self (g.key row, [row])
          (rows.map fun row => (g.key row, [row]))
        rw [hk] at hcons
        rw [List.map_cons, hk, hcons, List.filter_cons_of_pos (by simpa using hk)]
        cases o with
        | none => simp [Dict.combine, ih]
        | some items => simp [Dict.combine, ih, List.append_assoc]
      · have hne : (g.key row, [row]).1 ≠ k := hk
        rw [List.map_cons, Dict.valuesAt_cons_ne hne, List.filter_cons_of_neg (by simpa using hk)]
        exact ih o
  unfold itemsByKey Dict.getD
  rw [Dict.get?_mergeAll, hloop]
  unfold Dict.getD at hstart
  rw [hstart, List.nil_append]

theorem mem_fillGroups [DecidableEq K] {entries : List (H × ℕ × M)} {loaded : List R}
    {group : Group R H M} (h : group ∈ fillGroups g entries loaded) :
    (group.head, group.count, group.total) ∈ entries ∧ group.items = loaded.filter fun row =>
    g.key row = g.headKey group.head := by
  obtain ⟨entry, hentry, rfl⟩ := List.mem_map.mp h
  exact ⟨hentry, getD_itemsByKey _ _ _⟩

variable [DecidableEq H]

/-- An entry has the number of the rows of its head and their total. -/
theorem mem_groupRows [AddCommMonoid M] {head : H} {count : ℕ} {total : M} :
    (head, count, total) ∈ groupRows g rows ↔ (∃ row ∈ rows, g.head row = head) ∧
      count = (rows.filter fun row => g.head row = head).length ∧
      total = ((rows.filter fun row => g.head row = head).map g.amount).sum := by
  have hvalues : Dict.valuesAt
      (rows.map fun row => (g.head row, ((1, g.amount row) : ℕ × M))) head =
      (rows.filter fun row => g.head row = head).map fun row => (1, g.amount row) := by
    unfold Dict.valuesAt
    rw [List.filter_map, List.map_map]
    rfl
  have hsum : ∀ rows : List R, (rows.map fun row => ((1, g.amount row) : ℕ × M)).sum =
      (rows.length, (rows.map g.amount).sum) := by
    intro rows
    induction rows with
    | nil => rfl
    | cons row rows ih =>
      rw [List.map_cons, List.sum_cons, ih, List.length_cons, List.map_cons, List.sum_cons,
        Prod.mk_add_mk, Nat.add_comm]
  unfold groupRows groupSum
  rw [← Dict.get?_eq_some_iff, Dict.get?_sumBy, hvalues]
  split_ifs with hnil
  · refine iff_of_false (by simp) fun h => ?_
    obtain ⟨row, hrow, hhead⟩ := h.1
    have hmem : row ∈ rows.filter fun row => g.head row = head :=
      List.mem_filter.mpr ⟨hrow, decide_eq_true hhead⟩
    rw [List.map_eq_nil_iff.mp hnil] at hmem
    exact absurd hmem List.not_mem_nil
  · rw [Option.some.injEq, hsum, Prod.mk.injEq]
    have hexists : ∃ row ∈ rows, g.head row = head := by
      obtain ⟨row, hrow⟩ := List.exists_mem_of_ne_nil _ fun h => hnil (List.map_eq_nil_iff.mpr h)
      exact ⟨row, (List.mem_filter.mp hrow).1, of_decide_eq_true (List.mem_filter.mp hrow).2⟩
    constructor
    · intro h
      exact ⟨hexists, h.1.symm, h.2.symm⟩
    · intro h
      exact ⟨h.2.1.symm, h.2.2.symm⟩

theorem nodup_groupRows [AddCommMonoid M] : ((groupRows g rows).map Prod.fst).Nodup :=
  (Dict.sumBy _).nodup

/-- The rows, group by group. -/
theorem flatMap_filter_perm :
    ∀ {heads : List H} {rows : List R}, heads.Nodup → (∀ row ∈ rows, g.head row ∈ heads) →
    (heads.flatMap fun head => rows.filter fun row => g.head row = head).Perm rows
  | [], [], _, _ => List.Perm.refl _
  | [], row :: _, _, h => absurd (h row List.mem_cons_self) List.not_mem_nil
  | head :: heads, rows, hnodup, h => by
    obtain ⟨hhead, hheads⟩ := List.nodup_cons.mp hnodup
    have hrest : ∀ row ∈ rows.filter fun row =>
        !decide (g.head row = head), g.head row ∈ heads := by
      intro row hrow
      obtain ⟨hmem, hne⟩ := List.mem_filter.mp hrow
      rcases List.mem_cons.mp (h row hmem) with heq | hin
      · simp [heq] at hne
      · exact hin
    have hsame : (heads.flatMap fun head' => rows.filter fun row => g.head row = head') =
        heads.flatMap fun head' =>
            (rows.filter fun row => !decide (g.head row = head)).filter fun row =>
            g.head row = head' := by
      rw [List.flatMap_def, List.flatMap_def]
      refine congrArg _ (List.map_congr_left fun head' hhead' => ?_)
      rw [List.filter_filter]
      refine List.filter_congr fun row _ => ?_
      by_cases heq : g.head row = head'
      · have hne : g.head row ≠ head := fun he => hhead (he ▸ heq ▸ hhead')
        simp [heq, heq ▸ hne]
      · simp [heq]
    rw [List.flatMap_cons, hsame]
    exact ((flatMap_filter_perm hheads hrest).append_left _).trans (List.filter_append_perm _ rows)

end Rows

/-! ### All pages -/

/-- Groups show the rows. -/
structure Grouped {R K H M : Type} [DecidableEq H] [AddCommMonoid M] (g : Grouping R K H M)
    (itemColumns : List (Column R)) (rows : List R) (groups : List (Group R H M)) : Prop where
  nodup : (groups.map Group.head).Nodup
  heads : ∀ head, head ∈ groups.map Group.head ↔ ∃ row ∈ rows, g.head row = head
  items : ∀ group ∈ groups, group.items.Perm (rows.filter fun row => g.head row = group.head)
  sorted : ∀ group ∈ groups, group.items.Pairwise (Before itemColumns)
  count : ∀ group ∈ groups, group.count = group.items.length
  total : ∀ group ∈ groups, group.total = (group.items.map g.amount).sum

section Pages

variable {R K H M : Type} [DecidableEq H] [AddCommMonoid M] {g : Grouping R K H M} {rows : List R}
  {itemColumns : List (Column R)} {columns : List (Column (H × ℕ × M))}
  {groups : List (Group R H M)}

/-- **Each row is in one group.** -/
theorem Grouped.items_perm (h : Grouped g itemColumns rows groups) :
    (groups.flatMap Group.items).Perm rows := by
  have hheads : ∀ row ∈ rows, g.head row ∈ groups.map Group.head :=
    fun row hrow => (h.heads _).mpr ⟨row, hrow, rfl⟩
  refine List.Perm.trans ?_ (flatMap_filter_perm h.nodup hheads)
  rw [List.flatMap_map]
  exact List.Perm.flatMap_left _ h.items

theorem Grouped.head_of_mem (h : Grouped g itemColumns rows groups) {group : Group R H M}
    (hgroup : group ∈ groups) {row : R} (hrow : row ∈ group.items) :
    row ∈ rows ∧ g.head row = group.head := by
  obtain ⟨hmem, hhead⟩ := List.mem_filter.mp ((h.items group hgroup).mem_iff.mp hrow)
  exact ⟨hmem, of_decide_eq_true hhead⟩

/-- Some of the groups have the rows that their heads are selected by. -/
theorem Grouped.filter_perm (h : Grouped g itemColumns rows groups) (p : H → Bool) :
    ((groups.filter fun group => p group.head).flatMap Group.items).Perm
    (rows.filter fun row => p (g.head row)) := by
  have hfilter : ∀ groups' : List (Group R H M), (∀ group ∈ groups', group ∈ groups) →
      ((groups'.filter fun group => p group.head).flatMap Group.items) =
        (groups'.flatMap Group.items).filter fun row => p (g.head row) := by
    intro groups' hsub
    induction groups' with
    | nil => rfl
    | cons group groups' ih =>
      have hmem := hsub group List.mem_cons_self
      have hitems : ∀ row ∈ group.items, p (g.head row) = p group.head :=
        fun row hrow => congrArg p (h.head_of_mem hmem hrow).2
      rw [List.flatMap_cons,
        List.filter_append, ← ih fun group' hgroup' => hsub group' (List.mem_cons_of_mem _ hgroup'),
        List.filter_cons, List.filter_congr hitems]
      cases p group.head with
      | true => rw [if_pos rfl, List.flatMap_cons, List.filter_true]
      | false => rw [if_neg Bool.false_ne_true, List.filter_false, List.nil_append]
  rw [hfilter groups fun _ hgroup => hgroup]
  exact h.items_perm.filter _

variable [DecidableEq K]

/-- A group of a page has the rows of its head. -/
theorem mem_groupPage {plan : Plan} {pageNo size : ℕ} {group : Group R H M}
    (hkeys : ∀ a ∈ rows, ∀ b ∈ rows, g.key a = g.key b → g.head a = g.head b)
    (hgroup : group ∈ groupPage g plan columns itemColumns rows pageNo size) :
    (group.head, group.count, group.total) ∈ groupRows g rows ∧
      group.items.Perm (rows.filter fun row => g.head row = group.head) ∧
      group.items.Pairwise (Before itemColumns) := by
  obtain ⟨hentry, hitems⟩ := mem_fillGroups hgroup
  have hin : (group.head, group.count, group.total) ∈ groupRows g rows :=
    (orderBy_perm ..).mem_iff.mp (List.mem_of_mem_drop (List.mem_of_mem_take hentry))
  obtain ⟨row₀, hrow₀, hhead₀⟩ := (mem_groupRows.mp hin).1
  let keys := (pageEntries g plan columns rows pageNo size).map fun entry => g.headKey entry.1
  have hkey : g.headKey group.head ∈ keys := List.mem_map_of_mem hentry
  have hsame : ((rows.filter fun row => g.key row ∈ keys).filter
      fun row => g.key row = g.headKey group.head) = rows.filter fun row =>
      g.head row = group.head := by
    rw [List.filter_filter]
    refine List.filter_congr fun row hrow => ?_
    rw [Bool.eq_iff_iff, Bool.and_eq_true, decide_eq_true_eq, decide_eq_true_eq, decide_eq_true_eq]
    constructor
    · intro h
      rw [← hhead₀, g.headKey_head] at h
      rw [← hhead₀]
      exact hkeys row hrow row₀ hrow₀ h.1
    · intro h
      have heq : g.key row = g.headKey group.head := by rw [← h, g.headKey_head]
      exact ⟨heq, heq ▸ hkey⟩
  have hperm := (orderBy_perm plan itemColumns (rows.filter fun row => g.key row ∈ keys)).filter
    fun row => g.key row = g.headKey group.head
  have hsorted := (pairwise_orderBy plan itemColumns
    (rows.filter fun row => g.key row ∈ keys)).filter
    fun row => g.key row = g.headKey group.head
  rw [hsame] at hperm
  rw [hitems]
  exact ⟨hin, hperm, hsorted⟩

/-- **The pages of the groups.** Their columns tell groups apart, and the key says the rest of a
group; then the pages, each of queries of its own, show the groups of all rows in their order. -/
theorem grouped_pages (hkeys : ∀ a ∈ rows, ∀ b ∈ rows, g.key a = g.key b → g.head a = g.head b)
    (hcolumns : ∀ a ∈ groupRows g rows, ∀ b ∈ groupRows g rows, Ties columns a b → a = b)
    (plans : ℕ → Plan) {size n : ℕ} (hall : (groupRows g rows).length ≤ n * size) :
    let groups := (List.range n).flatMap fun i =>
    groupPage g (plans i) columns itemColumns rows (i + 1) size
    Grouped g itemColumns rows groups ∧ groups.length = (groupRows g rows).length ∧
      (groups.map fun group => (group.head, group.count, group.total)).Pairwise
      (Before columns) := by
  intro groups
  have hentries : (groups.map fun group => (group.head, group.count, group.total)) =
      orderBy (plans 0) columns (groupRows g rows) := by
    have hpages := pages_of_unique hcolumns plans (plans 0) hall
    rw [← hpages]
    unfold pages
    rw [List.map_flatMap]
    refine congrArg ((List.range n).flatMap ·) (funext fun i => ?_)
    unfold groupPage fillGroups
    rw [List.map_map]
    exact List.map_id _
  have hperm := orderBy_perm (plans 0) columns (groupRows g rows)
  have hfirst : groups.map Group.head =
      (groups.map fun group => (group.head, group.count, group.total)).map Prod.fst := by
    rw [List.map_map]
    rfl
  have hgroup : ∀ group ∈ groups, (group.head, group.count, group.total) ∈ groupRows g rows ∧
      group.items.Perm (rows.filter fun row => g.head row = group.head) ∧
          group.items.Pairwise (Before itemColumns) := by
    intro group hg
    obtain ⟨i, -, hi⟩ := List.mem_flatMap.mp hg
    exact mem_groupPage hkeys hi
  refine ⟨⟨?_, fun head => ?_, fun group hg => (hgroup group hg).2.1,
    fun group hg => (hgroup group hg).2.2, fun group hg => ?_, fun group hg => ?_⟩, ?_, ?_⟩
  · rw [hfirst, hentries]
    exact (hperm.map _).nodup_iff.mpr nodup_groupRows
  · rw [hfirst, hentries, (hperm.map _).mem_iff]
    constructor
    · intro h
      obtain ⟨entry, hentry, rfl⟩ := List.mem_map.mp h
      exact (mem_groupRows.mp hentry).1
    · intro h
      exact List.mem_map.mpr ⟨(head, _, _), mem_groupRows.mpr ⟨h, rfl, rfl⟩, rfl⟩
  · obtain ⟨hentry, hitems, -⟩ := hgroup group hg
    rw [hitems.length_eq]
    exact (mem_groupRows.mp hentry).2.1
  · obtain ⟨hentry, hitems, -⟩ := hgroup group hg
    rw [(hitems.map _).sum_eq]
    exact (mem_groupRows.mp hentry).2.2
  · rw [← hperm.length_eq, ← hentries, List.length_map]
  · rw [hentries]
    exact pairwise_orderBy ..

end Pages

end Listing
