/-
# ORDER BY, OFFSET and LIMIT

A query sorts its rows by columns, ascending with the missing values last or descending with
them first, and leaves rows that tie in an order that the database chooses, anew for every
query. A page is a part of the rows between two boundaries. If the columns tell all rows
apart, the pages together are the sorted rows, whatever is chosen (`pages_of_unique`).
-/
import Restock.Lib.Query

namespace Listing

/-! ### Columns -/

/-- What a query sorts by. -/
structure Column (A : Type) where
  K : Type
  order : LinearOrder K
  key : A → K

namespace Column

variable {A : Type}

def asc {K : Type} [order : LinearOrder K] (key : A → K) : Column A := ⟨K, order, key⟩

/-- Missing values come last. -/
def nullable {K : Type} [LinearOrder K] (key : A → Option K) : Column A := @asc A (WithTop K) _ key

def desc (c : Column A) : Column A := ⟨OrderDual c.K, @OrderDual.instLinearOrder c.K c.order, c.key⟩

/-- The direction of a request. -/
def directed (ascending : Bool) (c : Column A) : Column A := if ascending then c else c.desc

def Lt (c : Column A) (a b : A) : Prop := c.order.lt (c.key a) (c.key b)

def Same (c : Column A) (a b : A) : Prop := c.key a = c.key b

instance (c : Column A) (a b : A) : Decidable (c.Lt a b) := c.order.toDecidableLT _ _

instance (c : Column A) (a b : A) : Decidable (c.Same a b) := c.order.toDecidableEq _ _

variable {c : Column A} {a b d : A}

theorem Lt.trans (h : c.Lt a b) (h' : c.Lt b d) :
    c.Lt a d := @lt_trans _ c.order.toPreorder _ _ _ h h'

theorem Lt.irrefl (h : c.Lt a a) : False := @lt_irrefl _ c.order.toPreorder _ h

theorem lt_or_same_or_gt (c : Column A) (a b : A) :
    c.Lt a b ∨ c.Same a b ∨ c.Lt b a := @lt_trichotomy _ c.order _ _

theorem Same.lt (h : c.Same a b) (h' : c.Lt b d) : c.Lt a d := by
  unfold Lt Same at *
  rwa [h]

theorem Lt.same (h : c.Lt a b) (h' : c.Same b d) : c.Lt a d := by
  unfold Lt Same at *
  rwa [← h']

@[simp] theorem same_desc : c.desc.Same a b ↔ c.Same a b := Iff.rfl

@[simp] theorem same_directed (ascending : Bool) :
    (c.directed ascending).Same a b ↔ c.Same a b := by
  cases ascending <;> exact Iff.rfl

@[simp] theorem same_asc {K : Type} [LinearOrder K] {key : A → K} :
    (asc key).Same a b ↔ key a = key b := Iff.rfl

end Column

section Order

variable {A : Type} (columns : List (Column A))

/-- The columns one after the other. -/
def Before : List (Column A) → A → A → Prop
  | [], _, _ => True
  | c :: cs, a, b => c.Lt a b ∨ c.Same a b ∧ Before cs a b

def decidableBefore : ∀ (columns : List (Column A)) (a b : A), Decidable (Before columns a b)
  | [], _, _ => .isTrue trivial
  | _ :: cs, a, b => @instDecidableOr _ _ _ (@instDecidableAnd _ _ _ (decidableBefore cs a b))

instance (a b : A) : Decidable (Before columns a b) := decidableBefore columns a b

/-- The rows that no column tells apart. -/
def Ties (a b : A) : Prop := ∀ c ∈ columns, c.Same a b

variable {columns} {a b d : A}

theorem Before.trans : ∀ {columns : List (Column A)}, Before columns a b → Before columns b d →
    Before columns a d
  | [], _, _ => trivial
  | c :: cs, h, h' => by
    rcases h with hlt | ⟨hsame, hrest⟩
    · rcases h' with hlt' | ⟨hsame', -⟩
      · exact Or.inl (hlt.trans hlt')
      · exact Or.inl (hlt.same hsame')
    · rcases h' with hlt' | ⟨hsame', hrest'⟩
      · exact Or.inl (hsame.lt hlt')
      · exact Or.inr ⟨Eq.trans hsame hsame', hrest.trans hrest'⟩

theorem before_total :
    ∀ (columns : List (Column A)) (a b : A), Before columns a b ∨ Before columns b a
  | [], _, _ => Or.inl trivial
  | c :: cs, a, b => by
    rcases c.lt_or_same_or_gt a b with hlt | hsame | hgt
    · exact Or.inl (Or.inl hlt)
    · rcases before_total cs a b with h | h
      · exact Or.inl (Or.inr ⟨hsame, h⟩)
      · exact Or.inr (Or.inr ⟨Eq.symm hsame, h⟩)
    · exact Or.inr (Or.inl hgt)

theorem ties_of_before : ∀ {columns : List (Column A)}, Before columns a b → Before columns b a →
    Ties columns a b
  | [], _, _ => fun _ hc => absurd hc List.not_mem_nil
  | c :: cs, h, h' => by
    rcases h with hlt | ⟨hsame, hrest⟩
    · rcases h' with hlt' | ⟨hsame', -⟩
      · exact absurd (hlt.trans hlt') Column.Lt.irrefl
      · exact absurd (hlt.same hsame') Column.Lt.irrefl
    · rcases h' with hlt' | ⟨-, hrest'⟩
      · exact absurd (Column.Same.lt hsame hlt') Column.Lt.irrefl
      · intro c' hc'
        rcases List.mem_cons.mp hc' with rfl | hmem
        · exact hsame
        · exact ties_of_before hrest hrest' c' hmem

end Order

/-! ### Sorted rows and pages -/

section Pages

variable {A : Type}

/-- `ORDER BY columns` of the rows as the database takes them. -/
def orderBy (plan : Query.Plan) (columns : List (Column A)) (rows : List A) : List A :=
  (plan.order rows).mergeSort fun a b => decide (Before columns a b)

/-- `OFFSET (page - 1) * page_size LIMIT page_size`. -/
def page (rows : List A) (pageNo size : ℕ) : List A := (rows.drop ((pageNo - 1) * size)).take size

/-- The first pages, each of a query of its own. -/
def pages (rows : ℕ → List A) (size n : ℕ) :
    List A := (List.range n).flatMap fun i => page (rows i) (i + 1) size

variable {columns : List (Column A)} {rows l l' : List A}

theorem orderBy_perm (plan : Query.Plan) (columns : List (Column A)) (rows : List A) :
    (orderBy plan columns rows).Perm rows :=
  (List.mergeSort_perm _ _).trans (plan.perm rows)

theorem pairwise_orderBy (plan : Query.Plan) (columns : List (Column A)) (rows : List A) :
    (orderBy plan columns rows).Pairwise (Before columns) := by
  have hsorted : ((plan.order rows).mergeSort fun a b => decide (Before columns a b)).Pairwise
      fun a b => decide (Before columns a b) = true := List.pairwise_mergeSort
    (fun a b d hab hbd => decide_eq_true ((of_decide_eq_true hab).trans (of_decide_eq_true hbd)))
    (fun a b => by simpa using before_total columns a b) (plan.order rows)
  exact hsorted.imp fun h => of_decide_eq_true h

/-- Rows that the columns tell apart have one order. -/
theorem eq_of_perm_of_unique (hunique : ∀ a ∈ l, ∀ b ∈ l, Ties columns a b → a = b)
    (hperm : l.Perm l') (hl : l.Pairwise (Before columns)) (hl' : l'.Pairwise (Before columns)) :
    l = l' :=
  hperm.eq_of_pairwise (fun a b ha hb hab hba => hunique a ha b (hperm.mem_iff.mpr hb)
    (ties_of_before hab hba)) hl hl'

theorem orderBy_eq (hunique : ∀ a ∈ rows, ∀ b ∈ rows, Ties columns a b → a = b)
    (plan plan' : Query.Plan) : orderBy plan columns rows = orderBy plan' columns rows := by
  have hperm := orderBy_perm plan columns rows
  refine eq_of_perm_of_unique
    (fun a ha b hb => hunique a (hperm.mem_iff.mp ha) b (hperm.mem_iff.mp hb))
    (hperm.trans (orderBy_perm plan' columns rows).symm) (pairwise_orderBy ..) (pairwise_orderBy ..)

theorem pages_eq_take (l : List A) (size n : ℕ) :
    pages (fun _ => l) size n = l.take (n * size) := by
  unfold pages page
  induction n with
  | zero => simp
  | succ n ih =>
    rw [List.range_succ, List.flatMap_append, ih, List.flatMap_singleton, Nat.add_sub_cancel,
      Nat.succ_mul, List.take_add]

theorem pages_congr {rows rows' : ℕ → List A} {size n : ℕ} (h : ∀ i < n, rows i = rows' i) :
    pages rows size n = pages rows' size n := by
  unfold pages
  rw [List.flatMap_def, List.flatMap_def]
  exact congrArg _ (List.map_congr_left fun i hi => by rw [h i (List.mem_range.mp hi)])

/-- **Pages of rows that the columns tell apart** are the sorted rows, each query with a plan of
its own. -/
theorem pages_of_unique (hunique : ∀ a ∈ rows, ∀ b ∈ rows, Ties columns a b → a = b)
    (plans : ℕ → Query.Plan) (plan : Query.Plan) {size n : ℕ} (hall : rows.length ≤ n * size) :
    pages (fun i => orderBy (plans i) columns rows) size n = orderBy plan columns rows := by
  rw [pages_congr fun i _ => orderBy_eq hunique (plans i) plan, pages_eq_take,
    List.take_of_length_le]
  rw [(orderBy_perm plan columns rows).length_eq]
  exact hall

end Pages

end Listing
