import Shiftlush.Paging

namespace Shiftlush
namespace Lists

open Comparator (inTurn inTurn_eq inTurn_append_isLE reverse_eq sort_perm sort_sorted sort_eq_of_perm)
open Paging (pageCount page? page?_of_lt flatten_pages)

/-!
# List endpoints

`core.filters.StableOrderingFilter` and `core.pagination.StandardPagination`, over the rows that a
view's filters have left.  Each page is a query of its own, and the database returns rows that
compare as equal in whatever order its scan found them.
-/

/-! ## The order -/

/-- A term of `?ordering=`: a field, or a field after a minus sign. -/
structure Term where
  field : String
  descending : Bool
  deriving DecidableEq

/-- `_PRIMARY_KEY`, in both directions. -/
def primaryKey : List String := ["pk", "id"]

/-- What a view says of its list. -/
structure View where
  orderingFields : List String
  ordering : List Term

/-- `OrderingFilter.get_ordering`: the fields asked for that the view has, or the view's own. -/
def View.requested (view : View) (param : Option (List Term)) : List Term :=
  match (param.getD []).filter (fun term => view.orderingFields.contains term.field) with
  | [] => view.ordering
  | terms => terms

/-- `StableOrderingFilter.get_ordering` -/
def View.getOrdering (view : View) (param : Option (List Term)) : List Term :=
  let ordering := view.requested param
  if ordering = [] then ordering
  else if ordering.any (fun term => primaryKey.contains term.field) then ordering
  else ordering ++ [⟨"pk", false⟩]

/-- How the database compares the rows of a query, field by field: one value a row.  A field of
many rows would join them, and repeat the row; no view here orders by one. -/
structure Table (ρ : Type) where
  id : ρ -> Nat
  column : String -> Comparator ρ
  pk : ∀ name ∈ primaryKey, column name = Comparator.by_ id

variable {ρ : Type}

def Table.comparator (table : Table ρ) (term : Term) : Comparator ρ :=
  if term.descending then (table.column term.field).reverse else table.column term.field

/-- `QuerySet.order_by`; no terms leave the rows as they come. -/
def Table.orderBy (table : Table ρ) (terms : List Term) (rows : List ρ) : List ρ :=
  if terms = [] then rows else (inTurn (terms.map table.comparator)).sort rows

/-! ## The pages -/

def defaultPageSize : Nat := 25
def maxPageSize : Nat := 100

/-- `get_page_size`; what is no positive number is no page size. -/
def getPageSize (param : Option Int) : Nat :=
  match param with
  | none => defaultPageSize
  | some size => if size ≤ 0 then defaultPageSize else min size.toNat maxPageSize

inductive PageNumber where
  | number (n : Int)
  | last
  | malformed

/-- The envelope of `get_paginated_response`. -/
structure Page (ρ : Type) where
  results : List ρ
  page : Nat
  pageSize : Nat
  total : Nat
  totalPages : Nat
  deriving DecidableEq

/-- `paginate_queryset`; `none` is a page that is not found. -/
def paginate (sizeParam : Option Int) (number : PageNumber) (rows : List ρ) : Option (Page ρ) :=
  let size := getPageSize sizeParam
  let pages := pageCount rows.length size
  let chosen : Option Nat := match number with
    | .number n => if n ≤ 0 then none else some n.toNat
    | .last => some pages
    | .malformed => none
  chosen.bind (fun page => (page? size rows page).map (fun results => ⟨results, page, size, rows.length, pages⟩))

/-- The parameters every list takes. -/
structure Params where
  ordering : Option (List Term)
  pageSize : Option Int
  page : PageNumber

/-- A list view, on the rows as a scan of the database finds them. -/
def answer (table : Table ρ) (view : View) (params : Params) (scan : List ρ) : Option (Page ρ) :=
  paginate params.pageSize params.page (table.orderBy (view.getOrdering params.ordering) scan)

/-! ## Every row once -/

theorem getPageSize_pos (param : Option Int) : 0 < getPageSize param ∧ getPageSize param ≤ maxPageSize := by
  unfold getPageSize defaultPageSize maxPageSize
  cases param with
  | none => decide
  | some size =>
      dsimp only
      split
      · decide
      · omega

theorem getOrdering_ne_nil {view : View} (ordered : view.ordering ≠ []) (param : Option (List Term)) :
    view.getOrdering param ≠ [] := by
  have requested : view.requested param ≠ [] := by
    unfold View.requested
    split
    · exact ordered
    · assumption
  unfold View.getOrdering
  dsimp only
  rw [if_neg requested]
  split
  · exact requested
  · simp

/-- What was asked for comes first. -/
theorem getOrdering_prefix (view : View) (param : Option (List Term)) :
    view.requested param <+: view.getOrdering param := by
  unfold View.getOrdering
  dsimp only
  split
  · exact List.prefix_rfl
  · split
    · exact List.prefix_rfl
    · exact List.prefix_append _ _

/-- One of the terms is the primary key. -/
theorem key_mem_getOrdering {view : View} {param : Option (List Term)} (ordered : view.getOrdering param ≠ []) :
    ∃ term ∈ view.getOrdering param, term.field ∈ primaryKey := by
  unfold View.getOrdering at ordered ⊢
  dsimp only at ordered ⊢
  split
  · rename_i none_
    rw [if_pos none_] at ordered
    exact absurd none_ ordered
  · split
    · rename_i keyed
      rcases List.any_eq_true.mp keyed with ⟨term, mem, named⟩
      exact ⟨term, mem, by simpa using named⟩
    · exact ⟨⟨"pk", false⟩, List.mem_append_right _ List.mem_cons_self, List.mem_cons_self⟩

theorem id_of_comparator (table : Table ρ) {term : Term} (keyed : term.field ∈ primaryKey) {a b : ρ}
    (same : (table.comparator term).compare a b = .eq) : table.id a = table.id b := by
  have plain : (Comparator.by_ table.id).compare a b = .eq := by
    rw [← table.pk term.field keyed]
    unfold Table.comparator at same
    split at same
    · exact reverse_eq _ same
    · exact same
  have ids : compare (table.id a) (table.id b) = .eq := plain
  exact Std.LawfulEqCmp.eq_of_compare ids

/-- Rows with keys of their own have one order. -/
theorem orderBy_perm (table : Table ρ) {terms : List Term} (keyed : ∃ term ∈ terms, term.field ∈ primaryKey)
    {rows scan : List ρ} (distinct : (rows.map table.id).Nodup) (same : scan.Perm rows) :
    table.orderBy terms scan = table.orderBy terms rows := by
  unfold Table.orderBy
  split
  · rename_i none_
    rcases keyed with ⟨term, mem, _⟩
    rw [none_] at mem
    cases mem
  · apply sort_eq_of_perm _ same
    intro a mem b mem' equal
    rcases keyed with ⟨term, listed, named⟩
    have here := inTurn_eq (List.mem_map_of_mem listed) equal
    exact List.inj_on_of_nodup_map distinct mem mem' (id_of_comparator table named here)

theorem paginate_number (sizeParam : Option Int) (n : Int) (rows : List ρ) :
    paginate sizeParam (.number n) rows =
      if 1 ≤ n ∧ n ≤ pageCount rows.length (getPageSize sizeParam) then
        some ⟨(rows.drop ((n.toNat - 1) * getPageSize sizeParam)).take (getPageSize sizeParam), n.toNat,
          getPageSize sizeParam, rows.length, pageCount rows.length (getPageSize sizeParam)⟩
      else none := by
  unfold paginate
  dsimp only
  by_cases low : n ≤ 0
  · rw [if_pos low, if_neg (by omega)]
    rfl
  · rw [if_neg low, Option.bind_some]
    unfold page?
    by_cases high : n ≤ pageCount rows.length (getPageSize sizeParam)
    · rw [if_neg (by omega), if_pos (by omega)]
      rfl
    · rw [if_pos (by omega), if_neg (by omega)]
      rfl

theorem perm_orderBy (table : Table ρ) {terms : List Term} (some_ : terms ≠ []) (rows : List ρ) :
    (table.orderBy terms rows).Perm rows := by
  unfold Table.orderBy
  rw [if_neg some_]
  exact sort_perm _ rows

/-- The rows come in the turn that was asked for, whatever is added to settle ties. -/
theorem orderBy_requested (table : Table ρ) {view : View} (ordered : view.ordering ≠ []) (ordering : Option (List Term))
    (rows : List ρ) : (table.orderBy (view.getOrdering ordering) rows).Pairwise (fun a b =>
      ((inTurn ((view.requested ordering).map table.comparator)).compare a b).isLE = true) := by
  unfold Table.orderBy
  rw [if_neg (getOrdering_ne_nil ordered ordering)]
  refine (sort_sorted _ rows).imp ?_
  intro a b le
  rcases getOrdering_prefix view ordering with ⟨more, split⟩
  apply inTurn_append_isLE (more.map table.comparator)
  rw [← List.map_append, split]
  exact le

/-- However often the database is scanned while somebody turns the pages, and in whatever order it
finds the rows: the pages that exist are those the envelope counts, each says the same total, the
rows on them, one page after another, are all the rows in one order, and that order is the one
asked for. -/
theorem every_row_once (table : Table ρ) {view : View} (ordered : view.ordering ≠ []) (params : Params)
    {rows : List ρ} (distinct : (rows.map table.id).Nodup) (scans : Nat -> List ρ)
    (same : ∀ k, (scans k).Perm rows) :
    let size := getPageSize params.pageSize
    let pages := pageCount rows.length size
    let turn (k : Nat) (n : Int) := answer table view { params with page := .number n } (scans k)
    (∀ k n, (turn k n).isSome = true ↔ 1 ≤ n ∧ n ≤ pages) ∧
      (∀ k n, ∀ page ∈ turn k n, page.total = rows.length ∧ page.totalPages = pages ∧
        page.results.length ≤ size ∧ size ≤ maxPageSize) ∧
      ∃ whole, whole.Perm rows ∧
        whole.Pairwise (fun a b =>
          ((inTurn ((view.requested params.ordering).map table.comparator)).compare a b).isLE = true) ∧
        ((List.range pages).map (fun k => ((turn k (k + 1 : Nat)).map Page.results).getD [])).flatten = whole := by
  intro size pages turn
  let terms := view.getOrdering params.ordering
  have some_ : terms ≠ [] := getOrdering_ne_nil ordered params.ordering
  have perm : (table.orderBy terms rows).Perm rows := perm_orderBy table some_ rows
  have count : (table.orderBy terms rows).length = rows.length := perm.length_eq
  have here : ∀ k n, turn k n = paginate params.pageSize (.number n) (table.orderBy terms rows) := by
    intro k n
    change paginate params.pageSize (.number n) (table.orderBy terms (scans k)) = _
    rw [orderBy_perm table (key_mem_getOrdering some_) distinct (same k)]
  have positive := getPageSize_pos params.pageSize
  refine ⟨?_, ?_, table.orderBy terms rows, perm, ?_, ?_⟩
  · intro k n
    rw [here, paginate_number, count]
    split
    · rename_i inside
      exact iff_of_true rfl inside
    · rename_i outside
      exact iff_of_false Bool.false_ne_true outside
  · intro k n page found
    rw [here, paginate_number, count] at found
    split at found
    · rw [← Option.some.inj found]
      exact ⟨rfl, rfl, List.length_take_le _ _, positive.2⟩
    · cases found
  · exact orderBy_requested table ordered params.ordering rows
  · have shown : ∀ k ∈ List.range pages, ((turn k (k + 1 : Nat)).map Page.results).getD [] =
        (page? size (table.orderBy terms rows) (k + 1)).getD [] := by
      intro k mem
      have bound : k < pageCount rows.length (getPageSize params.pageSize) := List.mem_range.mp mem
      rw [here, paginate_number, count, if_pos (by omega), page?_of_lt (by rw [count]; exact bound)]
      rfl
    rw [List.map_congr_left shown]
    have whole := flatten_pages positive.1 (table.orderBy terms rows)
    rwa [count] at whole

/-- Two customers of one name, a row to a page, and the second scan finds them the other way round. -/
theorem every_row_once_ties :
    let table : Table (Nat × Nat) := {
      id := Prod.fst
      column := fun name => if primaryKey.contains name then Comparator.by_ Prod.fst else Comparator.by_ Prod.snd
      pk := fun name mem => if_pos (by simpa using mem) }
    let turn (k : Nat) := answer table ⟨["name"], [⟨"name", false⟩]⟩ ⟨none, some 1, .number (k + 1 : Nat)⟩
      (if k = 0 then [(1, 5), (2, 5)] else [(2, 5), (1, 5)])
    ((List.range 2).map (fun k => ((turn k).map Page.results).getD [])).flatten.Perm [(1, 5), (2, 5)] := by
  intro table turn
  have same : ∀ k : Nat, (if k = 0 then [(1, 5), (2, 5)] else [(2, 5), (1, 5)]).Perm [(1, 5), (2, 5)] := by
    intro k
    split
    · exact List.Perm.refl _
    · exact List.Perm.swap _ _ _
  rcases (@every_row_once _ table ⟨["name"], [⟨"name", false⟩]⟩ (by decide) ⟨none, some 1, .number 1⟩
    [(1, 5), (2, 5)] (by decide) (fun k => if k = 0 then [(1, 5), (2, 5)] else [(2, 5), (1, 5)]) same).2.2 with
    ⟨whole, perm, _, result⟩
  exact result ▸ perm

end Lists
end Shiftlush
