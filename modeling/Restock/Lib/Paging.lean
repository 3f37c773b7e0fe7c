/-
# Reading a remote list page by page

Pages are asked for one after the other, and the rows of each are handled before the next
is asked for. The loop ends with the page that the answer calls the last one, or with a
page without rows. If all answers report the same number of pages, a loop that ends well
has handled the rows of the pages up to the first one without rows (`eachPage_ok`), and
it does end (`isSome_eachPage`).
-/
import Restock.Lib.Transaction

namespace Paging

/-- An answer of the remote. -/
structure Page (R : Type) where
  rows : List R
  totalPage : ℤ

variable {R σ ε : Type}

/-- The rows one after the other. -/
def handleAll (handle : R → Transaction σ ε Unit) : List R → Transaction σ ε Unit
  | [] => Transaction.pure ()
  | row :: rows => do
    handle row
    handleAll handle rows

def eachPage (remote : ℕ → Except ε (Page R)) (handle : R → Transaction σ ε Unit) :
    (fuel pageNo : ℕ) → σ → Option (Except ε Unit × σ)
  | 0, _, _ => none
  | fuel + 1, pageNo, s =>
    match remote pageNo with
    | .error e => some (.error e, s)
    | .ok page =>
      match handleAll handle page.rows s with
      | (.error e, s') => some (.error e, s')
      | (.ok _, s') =>
        if page.totalPage ≤ pageNo ∨ page.rows = [] then some (.ok (), s')
        else eachPage remote handle fuel (pageNo + 1) s'

section Rows

variable (remote : ℕ → Except ε (Page R))

def rowsOf (pageNo : ℕ) : List R := (remote pageNo).toOption.elim [] Page.rows

/-- The rows of some pages, up to the first page without rows. -/
def rowsRead : List ℕ → List R
  | [] => []
  | pageNo :: pages =>
    if rowsOf remote pageNo = [] then [] else rowsOf remote pageNo ++ rowsRead pages

/-- The rows of some pages. -/
def rowsListed (pages : List ℕ) : List R := pages.flatMap (rowsOf remote)

/-- The pages of a list of so many: there is a first one in any case. -/
def pagesFrom (pageNo : ℕ) (total : ℤ) :
    List ℕ := List.range' pageNo (max 1 (total + 1 - pageNo).toNat)

/-- All answers report the same number of pages. -/
def ConstantTotal (total : ℤ) :
    Prop := ∀ pageNo page, remote pageNo = .ok page → page.totalPage = total

variable {remote}

theorem rowsRead_initial : ∀ pages : List ℕ, rowsRead remote pages <+: rowsListed remote pages
  | [] => List.prefix_rfl
  | pageNo :: pages => by
    rw [rowsListed, List.flatMap_cons, ← rowsListed]
    unfold rowsRead
    split_ifs with h
    · exact List.nil_prefix
    · exact (List.prefix_append_right_inj _).mpr (rowsRead_initial pages)

theorem rowsOf_of_ok {pageNo : ℕ} {page : Page R} (h : remote pageNo = .ok page) :
    rowsOf remote pageNo = page.rows := by
  rw [rowsOf, h]
  rfl

theorem pagesFrom_of_le {pageNo : ℕ} {total : ℤ} (h : total ≤ pageNo) :
    pagesFrom pageNo total = [pageNo] := by
  have hone : max 1 (total + 1 - pageNo).toNat = 1 := by omega
  rw [pagesFrom, hone]
  rfl

theorem pagesFrom_of_lt {pageNo : ℕ} {total : ℤ} (h : pageNo < total) :
    pagesFrom pageNo total = pageNo :: pagesFrom (pageNo + 1) total := by
  have hmore : max 1 (total + 1 - pageNo).toNat = max 1
      (total + 1 - (pageNo + 1 : ℕ)).toNat + 1 := by
    push_cast
    omega
  rw [pagesFrom, hmore, List.range'_succ]
  rfl

/-- If pages without rows come last, all rows are read. -/
theorem rowsRead_eq_listed : ∀ {pages : List ℕ},
    pages.Pairwise (fun pageNo pageNo' => rowsOf remote pageNo = [] → rowsOf remote pageNo' = []) →
      rowsRead remote pages = rowsListed remote pages
  | [], _ => rfl
  | pageNo :: pages, h => by
    obtain ⟨hlast, hrest⟩ := List.pairwise_cons.mp h
    rw [rowsRead, rowsListed, List.flatMap_cons, ← rowsListed]
    split_ifs with hempty
    · have hnone : rowsListed remote pages = [] := List.flatMap_eq_nil_iff.mpr fun pageNo' hm =>
        hlast pageNo' hm hempty
      rw [hnone, hempty]
      rfl
    · rw [rowsRead_eq_listed hrest]

/-- Nothing is read behind a page without rows. -/
theorem rowsRead_of_empty {pageNo : ℕ} {total : ℤ} (h : rowsOf remote pageNo = []) :
    rowsRead remote (pagesFrom pageNo total) = [] := by
  rcases le_or_gt total pageNo with hle | hlt
  · rw [pagesFrom_of_le hle, rowsRead, if_pos h]
  · rw [pagesFrom_of_lt hlt, rowsRead, if_pos h]

end Rows

variable {remote : ℕ → Except ε (Page R)} {handle : R → Transaction σ ε Unit}

theorem handleAll_append :
    ∀ (rows rows' : List R) {s s' : σ}, handleAll handle rows s = (.ok (), s') →
    handleAll handle (rows ++ rows') s = handleAll handle rows' s'
  | [], rows', s, s', h => by
    obtain ⟨-, rfl⟩ := Prod.mk.inj h
    rfl
  | row :: rows, rows', s, s', h => by
    obtain ⟨_, s₁, hrow, hrest⟩ := Transaction.bind_eq_ok.mp h
    show (handle row >>= fun _ => handleAll handle (rows ++ rows')) s = _
    rw [Transaction.bind_of_ok hrow, handleAll_append rows rows' hrest]

/-- What every row changes in the same way changes by all of them. -/
theorem handleAll_fold {τ : Type} (view : σ → τ) (step : τ → R → τ)
    (h : ∀ row s s', handle row s = (.ok (), s') → view s' = step (view s) row) :
    ∀ (rows : List R) {s s' : σ}, handleAll handle rows s = (.ok (), s') →
    view s' = rows.foldl step (view s)
  | [], s, s', hall => by
    obtain ⟨-, rfl⟩ := Prod.mk.inj hall
    rfl
  | row :: rows, s, s', hall => by
    obtain ⟨_, s₁, hrow, hrest⟩ := Transaction.bind_eq_ok.mp hall
    rw [handleAll_fold view step h rows hrest, h row s s₁ hrow, List.foldl_cons]

/-- A loop that ends well has handled some rows, whatever number of pages is reported. -/
theorem eachPage_handles :
    ∀ {fuel pageNo : ℕ} {s s' : σ}, eachPage remote handle fuel pageNo s = some (.ok (), s') →
    ∃ rows, handleAll handle rows s = (.ok (), s')
  | 0, _, _, _, h => by cases h
  | fuel + 1, pageNo, s, s', h => by
    unfold eachPage at h
    split at h
    · cases h
    · rename_i page _
      split at h
      · cases h
      · rename_i hall
        split_ifs at h
        · obtain ⟨-, rfl⟩ := Prod.mk.inj (Option.some.inj h)
          exact ⟨page.rows, hall⟩
        · obtain ⟨rows, hrest⟩ := eachPage_handles h
          exact ⟨page.rows ++ rows, (handleAll_append _ _ hall).trans hrest⟩

/-- **A loop that ends well** has handled the rows up to the first page without rows. -/
theorem eachPage_ok {total : ℤ} (hconst : ConstantTotal remote total) :
    ∀ {fuel pageNo : ℕ} {s s' : σ}, eachPage remote handle fuel pageNo s = some (.ok (), s') →
      handleAll handle (rowsRead remote (pagesFrom pageNo total)) s = (.ok (), s')
  | 0, _, _, _, h => by cases h
  | fuel + 1, pageNo, s, s', h => by
    unfold eachPage at h
    cases hpage : remote pageNo with
    | error e =>
      rw [hpage] at h
      cases h
    | ok page =>
      have hrows := rowsOf_of_ok hpage
      have htotal := hconst pageNo page hpage
      rw [hpage] at h
      simp only at h
      cases hall : handleAll handle page.rows s with
      | mk r s₁ =>
        rw [hall] at h
        cases r with
        | error e => cases h
        | ok u =>
          simp only at h
          split_ifs at h with hend
          · obtain ⟨-, rfl⟩ := Prod.mk.inj (Option.some.inj h)
            by_cases hempty : page.rows = []
            · rw [rowsRead_of_empty (hrows.trans hempty), ← hempty]
              exact hall
            · have hlast : total ≤ pageNo := htotal ▸ hend.resolve_right hempty
              rw [pagesFrom_of_le hlast, rowsRead, hrows, if_neg hempty, rowsRead, List.append_nil]
              exact hall
          · obtain ⟨hmore, hsome⟩ := not_or.mp hend
            rw [pagesFrom_of_lt (by omega), rowsRead, hrows, if_neg hsome,
              handleAll_append _ _ hall]
            exact eachPage_ok hconst h

/-- With as much fuel as there are pages the loop ends. -/
theorem isSome_eachPage {total : ℤ} (hconst : ConstantTotal remote total) :
    ∀ (fuel pageNo : ℕ) (s : σ), (total - pageNo).toNat < fuel →
    (eachPage remote handle fuel pageNo s).isSome = true
  | 0, _, _, h => absurd h (Nat.not_lt_zero _)
  | fuel + 1, pageNo, s, h => by
    unfold eachPage
    cases hpage : remote pageNo with
    | error e => rfl
    | ok page =>
      have htotal := hconst pageNo page hpage
      simp only
      cases handleAll handle page.rows s with
      | mk r s₁ =>
        cases r with
        | error e => rfl
        | ok u =>
          simp only
          split_ifs with hend
          · rfl
          · exact isSome_eachPage hconst fuel (pageNo + 1) s₁ (by omega)

end Paging
