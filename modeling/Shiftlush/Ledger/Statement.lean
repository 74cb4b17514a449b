import Shiftlush.Ledger.Reconciliation

namespace Shiftlush
namespace Ledger

/-!
# An account's statement

`apps.ledger.statement`: the movements of an account in a date range, each with
the balance after it, under the balance carried in.  The books are any books:
what makes statements chain is the order of the rows and not how they came to be.
-/

/-! ## Sorting a list in two parts -/

section Sorting

variable {α : Type} {before : α -> α -> Prop} [DecidableRel before]

theorem orderedInsert_append_of_le {a : α} {later : List α} (least : ∀ b ∈ later, before a b) (l : List α) :
    List.orderedInsert before a (l ++ later) = List.orderedInsert before a l ++ later := by
  induction l with
  | nil =>
      cases later with
      | nil => rfl
      | cons b later =>
          rw [List.nil_append, List.orderedInsert_cons, if_pos (least b List.mem_cons_self)]
          rfl
  | cons c l ih =>
      rw [List.cons_append, List.orderedInsert_cons, List.orderedInsert_cons]
      by_cases here : before a c
      · rw [if_pos here, if_pos here]
        rfl
      · rw [if_neg here, if_neg here, ih]
        rfl

theorem orderedInsert_append_of_gt {a : α} {l : List α} (greatest : ∀ b ∈ l, ¬ before a b) (later : List α) :
    List.orderedInsert before a (l ++ later) = l ++ List.orderedInsert before a later := by
  induction l with
  | nil => rfl
  | cons c l ih =>
      rw [List.cons_append, List.orderedInsert_cons, if_neg (greatest c List.mem_cons_self),
        ih (fun b mem => greatest b (List.mem_cons_of_mem c mem))]
      rfl

/-- Where each element of one part comes before each of the other, the parts are
sorted apart. -/
theorem insertionSort_split (p : α -> Bool) {l : List α}
    (apart : ∀ a ∈ l, ∀ b ∈ l, p a = true -> p b = false -> before a b ∧ ¬ before b a) :
    List.insertionSort before l =
      List.insertionSort before (l.filter p) ++ List.insertionSort before (l.filter (fun a => !p a)) := by
  induction l with
  | nil => rfl
  | cons a l ih =>
      have rest := ih (fun x mem y mem' => apart x (List.mem_cons_of_mem a mem) y (List.mem_cons_of_mem a mem'))
      rw [List.insertionSort_cons, rest]
      cases side : p a with
      | true =>
          rw [List.filter_cons_of_pos side, List.filter_cons_of_neg (by simp [side]), List.insertionSort_cons]
          apply orderedInsert_append_of_le
          intro b mem
          rw [List.mem_insertionSort, List.mem_filter, Bool.not_eq_true'] at mem
          exact (apart a List.mem_cons_self b (List.mem_cons_of_mem a mem.1) side mem.2).1
      | false =>
          rw [List.filter_cons_of_neg (by simp [side]), List.filter_cons_of_pos (by simp [side]),
            List.insertionSort_cons]
          apply orderedInsert_append_of_gt
          intro b mem
          rw [List.mem_insertionSort, List.mem_filter] at mem
          exact (apart b (List.mem_cons_of_mem a mem.1) a List.mem_cons_self mem.2 side).2

end Sorting

/-! ## The statement -/

structure StatementRow where
  date : Date
  debit : Cents
  credit : Cents
  /-- The account's balance after this row. -/
  balance : Cents
  document : DocumentRef
  isReversal : Bool
  movement : Id
  deriving DecidableEq, Repr

structure Statement where
  account : Id
  start : Option Date
  finish : Option Date
  /-- The balance strictly before `start`; zero without a start. -/
  opening : Cents
  rows : List StatementRow
  /-- The balance after the last row: the opening when there is none. -/
  closing : Cents
  deriving DecidableEq, Repr

namespace Statement

def totalDebit (s : Statement) : Cents := (s.rows.map (·.debit)).sum

def totalCredit (s : Statement) : Cents := (s.rows.map (·.credit)).sum

end Statement

/-- `StatementQuerySerializer.validate`: the range is not backwards. -/
def rangeValid (start finish : Option Date) : Bool :=
  match start, finish with
  | some start, some finish => decide (start ≤ finish)
  | _, _ => true

def Movement.debit (m : Movement) : Cents :=
  match m.account with
  | some (_, .debit) => m.amount
  | _ => 0

def Movement.credit (m : Movement) : Cents :=
  match m.account with
  | some (_, .credit) => m.amount
  | _ => 0

namespace Books

/-- `balances.account_balance_before`: the movements dated strictly before. -/
def accountBalanceBefore (v : Books) (account : Id) (day : Date) : Cents :=
  accountBalance { v with movements := v.movements.filter (fun r => decide (r.2.date < day)) } account

/-- The account's movements in the range, as they are stored. -/
def movementsIn (v : Books) (account : Id) (start finish : Option Date) : Rows Movement :=
  v.movements.filter (fun r => r.2.on (.account account) && start.all (fun day => decide (day ≤ r.2.date)) &&
    finish.all (fun day => decide (r.2.date ≤ day)))

end Books

section Rows

-- `created_at` of the movements
variable (createdAt : Id -> Int)

/-- `order_by("date", "created_at", "id")` -/
def listedBefore (r r' : Id × Movement) : Prop :=
  r.2.date < r'.2.date ∨ (r.2.date = r'.2.date ∧
    (createdAt r.1 < createdAt r'.1 ∨ (createdAt r.1 = createdAt r'.1 ∧ r.1 ≤ r'.1)))

instance : DecidableRel (listedBefore createdAt) := fun _ _ =>
  inferInstanceAs (Decidable (_ ∨ (_ ∧ (_ ∨ (_ ∧ _)))))

/-- One round of the loop over the movements: the row, and the balance after it. -/
def statementRow (balance : Cents) (r : Id × Movement) : StatementRow where
  date := r.2.date
  debit := r.2.debit
  credit := r.2.credit
  balance := balance + r.2.debit - r.2.credit
  document := r.2.document
  isReversal := r.2.reverses.isSome
  movement := r.1

def statementLoop (loop : Cents × List StatementRow) (r : Id × Movement) : Cents × List StatementRow :=
  let row := statementRow loop.1 r
  (row.balance, loop.2 ++ [row])

/-- `statement_rows` -/
def statementRows (v : Books) (account : Id) (start finish : Option Date) : Statement :=
  let opening := start.elim 0 (v.accountBalanceBefore account)
  let movements := List.insertionSort (listedBefore createdAt) (v.movementsIn account start finish)
  let loop := movements.foldl statementLoop (opening, [])
  { account := account, start := start, finish := finish, opening := opening, rows := loop.2, closing := loop.1 }

end Rows

/-! ## The running balance -/

/-- What the movements add to the balance, one after another. -/
def statementSum (movements : Rows Movement) : Cents := (movements.map (fun r => r.2.debit - r.2.credit)).sum

/-- The rows of the movements from a balance on. -/
def rowsFrom : Cents -> Rows Movement -> List StatementRow
  | _, [] => []
  | balance, r :: movements => statementRow balance r :: rowsFrom (statementRow balance r).balance movements

@[simp] theorem rowsFrom_cons (balance : Cents) (r : Id × Movement) (movements : Rows Movement) :
    rowsFrom balance (r :: movements) =
      statementRow balance r :: rowsFrom (statementRow balance r).balance movements := rfl

theorem statementRow_balance (balance : Cents) (r : Id × Movement) :
    (statementRow balance r).balance = balance + (r.2.debit - r.2.credit) := by
  unfold statementRow
  rw [add_sub_assoc]

@[simp] theorem statementSum_cons (r : Id × Movement) (movements : Rows Movement) :
    statementSum (r :: movements) = (r.2.debit - r.2.credit) + statementSum movements := List.sum_cons

theorem foldl_statementLoop (movements : Rows Movement) (balance : Cents) (rows : List StatementRow) :
    movements.foldl statementLoop (balance, rows) =
      (balance + statementSum movements, rows ++ rowsFrom balance movements) := by
  induction movements generalizing balance rows with
  | nil => simp [statementSum, rowsFrom]
  | cons r movements ih =>
      have step : statementLoop (balance, rows) r =
          ((statementRow balance r).balance, rows ++ [statementRow balance r]) := rfl
      rw [List.foldl_cons, step, ih, statementSum_cons, rowsFrom_cons, statementRow_balance, add_assoc,
        List.append_assoc]
      rfl

theorem rowsFrom_append (balance : Cents) (movements later : Rows Movement) :
    rowsFrom balance (movements ++ later) =
      rowsFrom balance movements ++ rowsFrom (balance + statementSum movements) later := by
  induction movements generalizing balance with
  | nil => simp [statementSum, rowsFrom]
  | cons r movements ih =>
      rw [List.cons_append, rowsFrom_cons, rowsFrom_cons, ih, statementRow_balance, statementSum_cons, ← add_assoc]
      rfl

theorem rowsFrom_sum (balance : Cents) (movements : Rows Movement) :
    ((rowsFrom balance movements).map (fun row => row.debit - row.credit)).sum = statementSum movements := by
  induction movements generalizing balance with
  | nil => rfl
  | cons r movements ih =>
      rw [rowsFrom_cons, List.map_cons, List.sum_cons, ih, statementSum_cons]
      rfl

/-- Each row's balance is what was carried in and the rows up to it. -/
theorem rowsFrom_balance {balance : Cents} {movements : Rows Movement} {k : Nat} {row : StatementRow}
    (here : (rowsFrom balance movements)[k]? = some row) : row.balance = balance +
      (((rowsFrom balance movements).take (k + 1)).map (fun row => row.debit - row.credit)).sum := by
  induction movements generalizing balance k with
  | nil => cases here
  | cons r movements ih =>
      rw [rowsFrom_cons] at here ⊢
      rw [List.take_succ_cons, List.map_cons, List.sum_cons]
      have head : (statementRow balance r).debit - (statementRow balance r).credit = r.2.debit - r.2.credit := rfl
      cases k with
      | zero =>
          rw [List.getElem?_cons_zero, Option.some.injEq] at here
          rw [← here, statementRow_balance, head, List.take_zero, List.map_nil, List.sum_nil, add_zero]
      | succ k =>
          rw [List.getElem?_cons_succ] at here
          have rest := ih here
          rw [statementRow_balance, add_assoc] at rest
          rw [head]
          rw [statementRow_balance]
          exact rest

/-! ## Sums over a range of dates -/

section Sums

variable {v : Books} {account : Id}

theorem signedOn_of_on {m : Movement} (on : m.on (.account account) = true) :
    m.signedOn (.account account) = m.debit - m.credit := by
  have side : m.account.any (fun side => decide (side.1 = account)) = true := on
  unfold Movement.signedOn Movement.debit Movement.credit
  cases at_account : m.account with
  | none =>
      rw [at_account] at side
      cases side
  | some pair =>
      rcases pair with ⟨id, direction⟩
      rw [at_account, Option.any_some, decide_eq_true_eq] at side
      rw [← side]
      cases direction <;> simp [Direction.signed]

theorem signedOn_of_off {m : Movement} (off : m.on (.account account) = false) :
    m.signedOn (.account account) = 0 := by
  have side : m.account.any (fun side => decide (side.1 = account)) = false := off
  unfold Movement.signedOn
  cases at_account : m.account with
  | none => rfl
  | some pair =>
      rw [at_account, Option.any_some, decide_eq_false_iff_not] at side
      exact if_neg side

/-- The movements of an account that a test picks add what the picked movements
add to the account. -/
theorem statementSum_filter (rows : Rows Movement) (p : Id × Movement -> Bool) :
    statementSum (rows.filter (fun r => r.2.on (.account account) && p r)) =
      Rows.total (rows.filter p) (fun _ m => m.signedOn (.account account)) := by
  induction rows with
  | nil => rfl
  | cons r rows ih =>
      rw [List.filter_cons, List.filter_cons]
      cases on : r.2.on (.account account) with
      | true =>
          rw [Bool.true_and]
          by_cases picked : p r = true
          · rw [if_pos picked, if_pos picked, statementSum_cons, Rows.total_cons, ih, signedOn_of_on on]
          · rw [if_neg picked, if_neg picked, ih]
      | false =>
          rw [Bool.false_and, if_neg Bool.false_ne_true, ih]
          by_cases picked : p r = true
          · rw [if_pos picked, Rows.total_cons, signedOn_of_off on, zero_add]
          · rw [if_neg picked]

variable (createdAt : Id -> Int)

/-- Whether a day is in the range. -/
def inRange (start finish : Option Date) (day : Date) : Bool :=
  start.all (fun first => decide (first ≤ day)) && finish.all (fun last => decide (day ≤ last))

/-- What the account gains over a range of dates. -/
def Books.accountChange (v : Books) (account : Id) (start finish : Option Date) : Cents :=
  Rows.total (v.movements.filter (fun r => inRange start finish r.2.date)) (fun _ m => m.signedOn (.account account))

theorem movementsIn_eq (start finish : Option Date) : v.movementsIn account start finish =
    v.movements.filter (fun r => r.2.on (.account account) && inRange start finish r.2.date) := by
  unfold Books.movementsIn inRange
  simp only [Bool.and_assoc]

/-- The rows as they are listed. -/
def Books.listed (v : Books) (account : Id) (start finish : Option Date) : Rows Movement :=
  List.insertionSort (listedBefore createdAt) (v.movementsIn account start finish)

theorem listed_sum (start finish : Option Date) :
    statementSum (v.listed createdAt account start finish) = v.accountChange account start finish := by
  have sorted : (v.listed createdAt account start finish).Perm (v.movementsIn account start finish) :=
    List.perm_insertionSort _ _
  have same : statementSum (v.listed createdAt account start finish) =
      statementSum (v.movementsIn account start finish) := (sorted.map _).sum_eq
  rw [same, movementsIn_eq, statementSum_filter]
  rfl

/-- What a statement opens with. -/
def Books.openingOf (v : Books) (account : Id) (start : Option Date) : Cents :=
  start.elim 0 (v.accountBalanceBefore account)

theorem statementRows_eq (start finish : Option Date) : statementRows createdAt v account start finish =
    { account := account, start := start, finish := finish
      opening := v.openingOf account start
      rows := rowsFrom (v.openingOf account start) (v.listed createdAt account start finish)
      closing := v.openingOf account start + v.accountChange account start finish } := by
  rw [← listed_sum createdAt]
  unfold statementRows
  dsimp only
  rw [foldl_statementLoop]
  rfl

theorem accountBalanceBefore_eq (day : Date) : v.accountBalanceBefore account day =
    Rows.total (v.movements.filter (fun r => decide (r.2.date < day))) (fun _ m => m.signedOn (.account account)) :=
  accountBalance_eq _ _

/-- What was there before the range and what the range adds is what is there
before the day after it. -/
theorem opening_add_change {start : Option Date} {last : Date} (valid : rangeValid start (some last) = true) :
    v.openingOf account start + v.accountChange account start (some last) =
      v.openingOf account (some (last + 1)) := by
  have after : v.openingOf account (some (last + 1)) = v.accountBalanceBefore account (last + 1) := rfl
  rw [after, accountBalanceBefore_eq]
  unfold Books.accountChange
  cases start with
  | none =>
      have opening : v.openingOf account none = 0 := rfl
      rw [opening, zero_add, Rows.total_filter, Rows.total_filter]
      apply Rows.total_congr
      intro r _
      simp only [inRange, Option.all_none, Option.all_some, Bool.true_and, Int.lt_add_one_iff]
  | some first =>
      have ordered : first ≤ last := of_decide_eq_true valid
      have opening : v.openingOf account (some first) = v.accountBalanceBefore account first := rfl
      rw [opening, accountBalanceBefore_eq, Rows.total_filter, Rows.total_filter, Rows.total_filter, ← Rows.total_add]
      apply Rows.total_congr
      intro r _
      simp only [inRange, Option.all_some, Bool.and_eq_true, decide_eq_true_eq]
      simp only [Int.lt_add_one_iff]
      by_cases early : r.2.date < first
      · rw [if_pos early, if_neg (fun both => not_le.mpr early both.1), if_pos (early.le.trans ordered), add_zero]
      · rw [if_neg early, zero_add]
        by_cases late : r.2.date ≤ last
        · rw [if_pos ⟨not_lt.mp early, late⟩, if_pos late]
        · rw [if_neg (fun both => late both.2), if_neg late]

/-- Everything the account ever gained is its balance. -/
theorem change_unbounded : v.accountChange account none none = v.accountBalance account := by
  rw [accountBalance_eq]
  unfold Books.accountChange
  rw [Rows.total_filter]
  rfl

/-- A range lists what its two parts list, one after the other. -/
theorem listed_split {start finish : Option Date} {last : Date} (valid : rangeValid start (some last) = true)
    (valid' : rangeValid (some (last + 1)) finish = true) : v.listed createdAt account start finish =
      v.listed createdAt account start (some last) ++ v.listed createdAt account (some (last + 1)) finish := by
  have first : v.movementsIn account start (some last) =
      (v.movementsIn account start finish).filter (fun r => decide (r.2.date ≤ last)) := by
    rw [movementsIn_eq, movementsIn_eq, List.filter_filter]
    apply List.filter_congr
    intro r _
    unfold inRange
    cases finish with
    | none => simp [Bool.and_comm, Bool.and_left_comm]
    | some day =>
        have later : last + 1 ≤ day := of_decide_eq_true valid'
        rw [Bool.eq_iff_iff]
        simp only [Option.all_some, Bool.and_eq_true, decide_eq_true_eq]
        constructor
        · rintro ⟨on, low, high⟩
          exact ⟨high, on, low, high.trans (Int.lt_of_add_one_le later).le⟩
        · rintro ⟨high, on, low, _⟩
          exact ⟨on, low, high⟩
  have second : v.movementsIn account (some (last + 1)) finish =
      (v.movementsIn account start finish).filter (fun r => !decide (r.2.date ≤ last)) := by
    rw [movementsIn_eq, movementsIn_eq, List.filter_filter]
    apply List.filter_congr
    intro r _
    unfold inRange
    cases start with
    | none =>
        rw [Bool.eq_iff_iff]
        simp only [Option.all_some, Option.all_none, Bool.and_eq_true, Bool.not_eq_true', decide_eq_true_eq,
          decide_eq_false_iff_not, Bool.true_and, Int.add_one_le_iff, not_le]
        constructor
        · rintro ⟨on, low, high⟩
          exact ⟨low, on, high⟩
        · rintro ⟨low, on, high⟩
          exact ⟨on, low, high⟩
    | some day =>
        have sooner : day ≤ last := of_decide_eq_true valid
        rw [Bool.eq_iff_iff]
        simp only [Option.all_some, Bool.and_eq_true, Bool.not_eq_true', decide_eq_true_eq, decide_eq_false_iff_not,
          Int.add_one_le_iff, not_le]
        constructor
        · rintro ⟨on, low, high⟩
          exact ⟨low, on, (sooner.trans_lt low).le, high⟩
        · rintro ⟨low, on, _, high⟩
          exact ⟨on, low, high⟩
  unfold Books.listed
  rw [first, second]
  apply insertionSort_split
  intro a _ b _ early late
  rw [decide_eq_true_eq] at early
  rw [decide_eq_false_iff_not, not_le] at late
  have apart := early.trans_lt late
  constructor
  · exact Or.inl apart
  · rintro (sooner | ⟨same, _⟩)
    · exact absurd sooner (not_lt.mpr apart.le)
    · exact absurd same (ne_of_gt apart)

theorem total_debit_sub_credit (rows : List StatementRow) :
    (rows.map (·.debit)).sum - (rows.map (·.credit)).sum = (rows.map (fun row => row.debit - row.credit)).sum := by
  induction rows with
  | nil => rfl
  | cons row rows ih =>
      rw [List.map_cons, List.map_cons, List.map_cons, List.sum_cons, List.sum_cons, List.sum_cons, ← ih]
      abel

end Sums

/-! ## Statements chain -/

/-- For any movements, and any creation times of them: statements of consecutive
ranges chain and their rows are those of the range they make up; in every
statement the balance runs from the opening through the rows; and a statement
without bounds closes on the balance. -/
theorem statement_chaining (createdAt : Id -> Int) (v : Books) (account : Id) :
    (∀ start last finish, rangeValid start (some last) = true ->
      (statementRows createdAt v account start (some last)).closing =
        (statementRows createdAt v account (some (last + 1)) finish).opening) ∧
    (∀ start last finish, rangeValid start (some last) = true -> rangeValid (some (last + 1)) finish = true ->
      (statementRows createdAt v account start finish).rows =
        (statementRows createdAt v account start (some last)).rows ++
          (statementRows createdAt v account (some (last + 1)) finish).rows) ∧
    (∀ start finish, let s := statementRows createdAt v account start finish
      (∀ k row, s.rows[k]? = some row ->
        row.balance = s.opening + ((s.rows.take (k + 1)).map (fun row => row.debit - row.credit)).sum) ∧
      s.totalDebit - s.totalCredit = s.closing - s.opening) ∧
    (statementRows createdAt v account none none).closing = v.accountBalance account := by
  refine ⟨?_, ?_, ?_, ?_⟩
  · intro start last finish valid
    rw [statementRows_eq, statementRows_eq]
    exact opening_add_change valid
  · intro start last finish valid valid'
    rw [statementRows_eq, statementRows_eq, statementRows_eq]
    dsimp only
    rw [listed_split createdAt valid valid', rowsFrom_append, listed_sum, opening_add_change valid]
  · intro start finish
    rw [statementRows_eq]
    dsimp only
    constructor
    · intro k row here
      exact rowsFrom_balance here
    · unfold Statement.totalDebit Statement.totalCredit
      dsimp only
      rw [total_debit_sub_credit, rowsFrom_sum, listed_sum]
      abel
  · rw [statementRows_eq]
    dsimp only
    rw [change_unbounded]
    exact zero_add _

/-- A customer's invoice and collections, split after the day of the first. -/
theorem statement_chaining_smallBooks :
    (statementRows Int.ofNat smallBooks 1 (some 90) (some 95)).closing =
      (statementRows Int.ofNat smallBooks 1 (some 96) none).opening ∧
    (statementRows Int.ofNat smallBooks 1 (some 90) none).rows =
      (statementRows Int.ofNat smallBooks 1 (some 90) (some 95)).rows ++
        (statementRows Int.ofNat smallBooks 1 (some 96) none).rows := by
  rcases statement_chaining Int.ofNat smallBooks 1 with ⟨chain, split, _⟩
  exact ⟨chain (some 90) 95 none (by decide), split (some 90) 95 none (by decide) (by decide)⟩

end Ledger
end Shiftlush
