import Shiftlush.Calendar
import Shiftlush.Ledger.Footprint
import Shiftlush.Ledger.Guarantees

namespace Shiftlush
namespace Ledger

/-!
# The finance summary

`apps.ledger.finance`: what the firm is owed, what it owes, where its money is,
and what came in and went out of each till in a window of dates.  Money that
moved inside the firm is neither, and a document made and cancelled in the
window is left out; what is left is still the change of the till's balance.
-/

/-! ## Mirrors -/

/-- A mirror has the source of a reversal. -/
def MarkedMirrors (v : Books) : Prop :=
  ∀ r ∈ v.movements, r.2.reverses ≠ none -> r.2.source = .reversal ∨ r.2.source = .invoiceCancel

theorem MarkedMirrors.addMovement {v : Books} (marked : MarkedMirrors v) {id : Id} {m : Movement}
    (own : m.reverses ≠ none -> m.source = .reversal ∨ m.source = .invoiceCancel) :
    MarkedMirrors (v.addMovement id m) := by
  intro r mem reverses
  rcases List.mem_append.mp mem with before | last
  · exact marked r before reverses
  · rw [List.mem_singleton.mp last] at reverses ⊢
    exact own reverses

instance : CoversNumbers (fun f => ∀ v, MarkedMirrors v -> MarkedMirrors (f v)) where
  post _ _ original := fun _ marked => marked.addMovement (fun reverses => absurd original reverses)
  mirror _ _ _ _ kind := fun _ marked => marked.addMovement (fun _ => kind)
  updateInvoice _ _ := fun _ marked => marked
  addDocument _ _ _ := fun _ marked => marked
  stampCancelled _ _ := fun _ marked => marked
  addApplication _ _ := fun _ marked => marked
  addAccount _ _ := fun _ marked => marked
  addCashAccount _ _ := fun _ marked => marked
  setClosedThrough _ _ := fun _ marked => marked
  setClock _ := fun _ marked => marked
  setCounter _ _ _ := fun _ marked => marked
  addNumbered _ _ := fun _ marked => marked

/-- A movement is reversed once, by a mirror of it. -/
structure MirrorLaw (v : Books) : Prop where
  keys : v.movements.Distinct
  once : ∀ id, (v.movements.filter (fun r => r.2.reverses = some id)).length ≤ 1
  mirrors : ∀ r ∈ v.movements, ∀ id, r.2.reverses = some id -> ∃ o ∈ v.movements, o.1 = id ∧
    o.2.reverses = none ∧ r.2 = o.2.mirror id r.2.date r.2.source ∧
    (r.2.source = .reversal ∨ r.2.source = .invoiceCancel)

theorem mirror_law {v : Books} (reachable : Reachable v) : MirrorLaw v where
  keys := reachable.inv.movementKeys
  once := reachable.inv.toSoundBooks.reversed_once
  mirrors r mem id reverses := by
    rcases reachable.inv.toSoundBooks.reverses mem reverses with ⟨o, at_o, key, original, _, mirror⟩
    have marked : MarkedMirrors v := reachable.of_kept (by
      intro s nextId unposted r mem
      rw [unposted.movements] at mem
      cases mem)
    refine ⟨o, at_o, key, original, mirror, marked r mem ?_⟩
    rw [reverses]
    exact Option.some_ne_none id

namespace Books

/-- What the tenant manager shows of a firm. -/
def ofFirm (v : Books) (firm : Id) : Books :=
  { v with
    accounts := v.accounts.filter (fun r => r.2.company = firm)
    cashAccounts := v.cashAccounts.filter (fun r => r.2.company = firm)
    movements := v.movements.filter (fun r => r.2.company = firm) }

end Books

theorem MirrorLaw.ofFirm {v : Books} (law : MirrorLaw v) (firm : Id) : MirrorLaw (v.ofFirm firm) where
  keys := Rows.Distinct.filter law.keys _
  once id := by
    refine Nat.le_trans ?_ (law.once id)
    exact (List.filter_sublist.filter _).length_le
  mirrors r mem id reverses := by
    rcases List.mem_filter.mp mem with ⟨there, own⟩
    rcases law.mirrors r there id reverses with ⟨o, at_o, key, original, mirror, source⟩
    refine ⟨o, List.mem_filter.mpr ⟨at_o, ?_⟩, key, original, mirror, source⟩
    have same : r.2.company = o.2.company := by
      rw [mirror]
      rfl
    rw [← same]
    exact own

/-! ## The summary -/

/-- `_INTERNAL` -/
def MovementSource.internal : MovementSource -> Bool
  | .transfer => true
  | .opening => true
  | _ => false

def inWindow (start finish day : Date) : Bool := decide (start ≤ day) && decide (day ≤ finish)

inductive SummaryPeriod where
  | today
  | yesterday
  | week
  | month
  deriving DecidableEq, Repr

/-- `period_range`.  The first of January of the year 1, a Monday, is day 366. -/
def periodRange (period : SummaryPeriod) (today : Calendar.Date) : Date × Date :=
  match period with
  | .today => (today.ordinal, today.ordinal)
  | .yesterday => (today.ordinal - 1, today.ordinal - 1)
  | .week => (today.ordinal - (today.ordinal - 366) % 7, today.ordinal)
  | .month => ((Calendar.Date.first today.month).ordinal, today.ordinal)

structure CashLine where
  cashAccount : Id
  balance : Cents
  moneyIn : Cents
  moneyOut : Cents
  deriving DecidableEq, Repr

structure CurrencySummary where
  currency : String
  receivables : Cents
  payables : Cents
  cashAccounts : List CashLine
  moneyIn : Cents
  moneyOut : Cents
  deriving DecidableEq, Repr

structure Summary where
  period : SummaryPeriod
  dateFrom : Date
  dateTo : Date
  currencies : List CurrencySummary
  deriving DecidableEq, Repr

namespace Books

/-- The movement that `reverses` names. -/
def original? (v : Books) (m : Movement) : Option Movement := m.reverses.bind v.movements.get?

/-- A transfer, an opening balance, or the reversal of one. -/
def isInternal (v : Books) (m : Movement) : Bool :=
  m.source.internal || (v.original? m).any (·.source.internal)

/-- Reversed within the window, or the reversal of a movement from within it. -/
def isOffset (v : Books) (start finish : Date) (r : Id × Movement) : Bool :=
  v.movements.any (fun m => decide (m.2.reverses = some r.1) && inWindow start finish m.2.date) ||
    (v.original? r.2).any (fun o => inWindow start finish o.date)

/-- `_flows` -/
def flows (v : Books) (start finish : Date) : Rows Movement :=
  v.movements.filter (fun r => r.2.cashAccount.isSome && inWindow start finish r.2.date &&
    !v.isInternal r.2 && !v.isOffset start finish r)

/-- What the flows of the window add up to on a till, one way. -/
def money (v : Books) (start finish : Date) (till : Id) (direction : CashDirection) : Cents :=
  cashTotal { v with movements := v.flows start finish } till direction

/-- Whether a till has a movement in the window. -/
def hasMoved (v : Books) (start finish : Date) (till : Id) : Bool :=
  v.movements.any (fun r => r.2.on (.cash till) && inWindow start finish r.2.date)

/-- Whether a till is listed: it is active, holds money or moved in the window. -/
def isListed (v : Books) (start finish : Date) (r : Id × CashAccount) : Bool :=
  r.2.isActive || decide (v.cashBalance r.1 ≠ 0) || v.hasMoved start finish r.1 ||
    (v.flows start finish).any (fun m => m.2.on (.cash r.1))

def cashLine (v : Books) (start finish : Date) (r : Id × CashAccount) : CashLine where
  cashAccount := r.1
  balance := v.cashBalance r.1
  moneyIn := v.money start finish r.1 .in
  moneyOut := v.money start finish r.1 .out

/-- The balances of the accounts in one currency. -/
def balancesIn (v : Books) (currency : String) : List Cents :=
  (v.accounts.filter (fun r => r.2.currency = currency)).map (fun r => v.accountBalance r.1)

end Books

/-- `balance_totals`: the positive balances, and the negative ones as a positive amount. -/
def balanceTotals (balances : List Cents) : Cents × Cents :=
  ((balances.filter (fun b => decide (0 < b))).sum, -(balances.filter (fun b => decide (b < 0))).sum)

section Summary

-- where a till comes in the order of names
variable (rank : Id -> Nat) (v : Books) (start finish : Date)

/-- The tills listed, by name and key. -/
def listedTills : Rows CashAccount :=
  (List.insertionSort (fun r r' => rank r.1 < rank r'.1 ∨ (rank r.1 = rank r'.1 ∧ r.1 ≤ r'.1)) v.cashAccounts).filter
    (v.isListed start finish)

def cashLines (currency : String) : List CashLine :=
  ((listedTills rank v start finish).filter (fun r => r.2.currency = currency)).map (v.cashLine start finish)

def currencySummary (currency : String) : CurrencySummary :=
  let lines := cashLines rank v start finish currency
  let totals := balanceTotals (v.balancesIn currency)
  { currency := currency, receivables := totals.1, payables := totals.2, cashAccounts := lines
    moneyIn := (lines.map (·.moneyIn)).sum, moneyOut := (lines.map (·.moneyOut)).sum }

/-- The currencies of the tills listed and of the accounts, in order. -/
def currencies : List String :=
  List.insertionSort (· ≤ ·) ((listedTills rank v start finish).map (·.2.currency) ++
    v.accounts.map (·.2.currency)).dedup

/-- `summary`, in the firm's context, over any window. -/
def summaryOver : List CurrencySummary :=
  (currencies rank v start finish).map (currencySummary rank v start finish)

/-- `summary` -/
def summary (period : SummaryPeriod) (today : Calendar.Date) : Summary :=
  let range := periodRange period today
  { period := period, dateFrom := range.1, dateTo := range.2
    currencies := summaryOver rank v range.1 range.2 }

end Summary

/-! ## What offsets within the window -/

section Offsets

variable {v : Books} {start finish : Date}

theorem MirrorLaw.original (law : MirrorLaw v) {r : Id × Movement} {id : Id} (mem : r ∈ v.movements)
    (reverses : r.2.reverses = some id) : ∃ o, (id, o) ∈ v.movements ∧ v.original? r.2 = some o ∧
      o.reverses = none ∧ r.2 = o.mirror id r.2.date r.2.source ∧ r.2.source.internal = false := by
  rcases law.mirrors r mem id reverses with ⟨o, at_o, rfl, original, mirror, source⟩
  refine ⟨o.2, at_o, ?_, original, mirror, ?_⟩
  · unfold Books.original?
    rw [reverses]
    exact Rows.get?_of_mem law.keys at_o
  · rcases source with kind | kind
    · rw [kind]
      rfl
    · rw [kind]
      rfl

theorem original?_of_original {m : Movement} (original : m.reverses = none) : v.original? m = none := by
  unfold Books.original?
  rw [original]
  rfl

/-- A mirror is internal with its original. -/
theorem MirrorLaw.isInternal (law : MirrorLaw v) {r : Id × Movement} {id : Id} {o : Movement}
    (mem : r ∈ v.movements) (reverses : r.2.reverses = some id) (found : v.original? r.2 = some o) :
    v.isInternal r.2 = v.isInternal o := by
  rcases law.original mem reverses with ⟨o', _, found', original, _, outside⟩
  rw [found] at found'
  cases found'
  unfold Books.isInternal
  rw [outside, found, original?_of_original original, Option.any_some, Option.any_none, Bool.false_or, Bool.or_false]

variable (v start finish)

/-- Neither internal, nor alone in the window, from its originals or its mirrors. -/
def offsetOriginals : Rows Movement :=
  v.movements.filter (fun r => inWindow start finish r.2.date && !v.isInternal r.2 && r.2.reverses.isNone &&
    v.isOffset start finish r)

def offsetMirrors : Rows Movement :=
  v.movements.filter (fun r => inWindow start finish r.2.date && !v.isInternal r.2 && r.2.reverses.isSome &&
    v.isOffset start finish r)

variable {v start finish}

theorem isOffset_original {r : Id × Movement} (original : r.2.reverses = none) :
    v.isOffset start finish r = true ↔
      ∃ m ∈ v.movements, m.2.reverses = some r.1 ∧ inWindow start finish m.2.date = true := by
  unfold Books.isOffset
  rw [original?_of_original original, Option.any_none, Bool.or_false, List.any_eq_true]
  simp only [Bool.and_eq_true, decide_eq_true_eq]

/-- A mirror is not reversed, so it is offset by its original alone. -/
theorem MirrorLaw.isOffset_mirror (law : MirrorLaw v) {r : Id × Movement} {id : Id} {o : Movement}
    (mem : r ∈ v.movements) (reverses : r.2.reverses = some id) (found : v.original? r.2 = some o) :
    v.isOffset start finish r = inWindow start finish o.date := by
  have unreversed : v.movements.any (fun m => decide (m.2.reverses = some r.1) && inWindow start finish m.2.date) =
      false := by
    rw [List.any_eq_false]
    intro m mem' both
    rw [Bool.and_eq_true, decide_eq_true_eq] at both
    rcases law.mirrors m mem' r.1 both.1 with ⟨o', at_o', key, original, _⟩
    rw [Rows.unique law.keys at_o' mem key, reverses] at original
    cases original
  unfold Books.isOffset
  rw [unreversed, found, Option.any_some, Bool.false_or]

/-- The mirrors of an original that is offset add what it added, the other way. -/
theorem MirrorLaw.total_mirrors (law : MirrorLaw v) (side : Side) {r : Id × Movement}
    (mem : r ∈ offsetOriginals v start finish) :
    Rows.total ((offsetMirrors v start finish).filter (fun m => m.2.reverses.getD 0 = r.1))
      (fun _ m => m.signedOn side) = -r.2.signedOn side := by
  rcases List.mem_filter.mp mem with ⟨there, kept⟩
  simp only [Bool.and_eq_true, Bool.not_eq_true', Option.isNone_iff_eq_none] at kept
  rcases kept with ⟨⟨⟨within, outside⟩, original⟩, offset⟩
  rcases (isOffset_original original).mp offset with ⟨m, at_m, reverses, within'⟩
  rcases law.original at_m reverses with ⟨o, at_o, found, _, mirror, _⟩
  have same : o = r.2 := congrArg Prod.snd (Rows.unique law.keys at_o there rfl)
  have member : m ∈ (offsetMirrors v start finish).filter (fun m => m.2.reverses.getD 0 = r.1) := by
    unfold offsetMirrors
    rw [List.mem_filter, List.mem_filter, within', law.isInternal at_m reverses found, same, outside, reverses,
      law.isOffset_mirror at_m reverses found, same, within]
    exact ⟨⟨at_m, rfl⟩, decide_eq_true rfl⟩
  have single : ((offsetMirrors v start finish).filter (fun m => m.2.reverses.getD 0 = r.1)).length ≤ 1 := by
    refine Nat.le_trans ?_ (law.once r.1)
    unfold offsetMirrors
    rw [List.filter_filter]
    apply List.Sublist.length_le
    apply List.monotone_filter_right
    intro m' passes
    simp only [Bool.and_eq_true, decide_eq_true_eq] at passes
    rcases Option.isSome_iff_exists.mp passes.2.1.2 with ⟨id, named⟩
    rw [named, Option.getD_some] at passes
    rw [decide_eq_true_eq, named, passes.1]
  have one := Nat.le_antisymm single (List.length_pos_of_mem member)
  rcases List.length_eq_one_iff.mp one with ⟨m', alone⟩
  rw [alone] at member ⊢
  have here := List.mem_singleton.mp member
  rw [Rows.total_cons, Rows.total_nil, add_zero, ← here, mirror, same]
  exact Movement.signedOn_mirror r.2 r.1 m.2.date m.2.source side

/-- A document made and cancelled within the window adds nothing. -/
theorem MirrorLaw.total_offsets (law : MirrorLaw v) (side : Side) :
    Rows.total (offsetOriginals v start finish) (fun _ m => m.signedOn side) +
      Rows.total (offsetMirrors v start finish) (fun _ m => m.signedOn side) = 0 := by
  have distinct : (offsetOriginals v start finish).Distinct := Rows.Distinct.filter law.keys _
  have known : ∀ m ∈ offsetMirrors v start finish,
      ((offsetOriginals v start finish).get? (m.2.reverses.getD 0)).isSome = true := by
    intro m mem
    rcases List.mem_filter.mp mem with ⟨there, kept⟩
    simp only [Bool.and_eq_true, Bool.not_eq_true'] at kept
    rcases kept with ⟨⟨⟨within, outside⟩, reversal⟩, offset⟩
    rcases Option.isSome_iff_exists.mp reversal with ⟨id, reverses⟩
    rcases law.original there reverses with ⟨o, at_o, found, original, _⟩
    have member : (id, o) ∈ offsetOriginals v start finish := by
      apply List.mem_filter.mpr
      refine ⟨at_o, ?_⟩
      have mirrored : v.isOffset start finish (id, o) = true :=
        (isOffset_original original).mpr ⟨m, there, reverses, within⟩
      rw [law.isOffset_mirror there reverses found] at offset
      rw [law.isInternal there reverses found] at outside
      rw [offset, outside, original, mirrored]
      rfl
    rw [reverses, Option.getD_some, Rows.get?_of_mem distinct member]
    rfl
  have grouped := Rows.total_group distinct (fun m : Movement => m.reverses.getD 0) known
    (fun _ m => m.signedOn side)
  rw [grouped, ← Rows.total_add]
  apply Rows.total_zero
  intro r mem
  rw [law.total_mirrors side mem]
  exact add_neg_cancel _

end Offsets

/-! ## The change of a till's balance -/

namespace Books

/-- The till's balance by the movements dated strictly before. -/
def cashBalanceBefore (v : Books) (till : Id) (day : Date) : Cents :=
  cashBalance { v with movements := v.movements.filter (fun r => decide (r.2.date < day)) } till

/-- How the till's balance changes over the window. -/
def cashChange (v : Books) (start finish : Date) (till : Id) : Cents :=
  v.cashBalanceBefore till (finish + 1) - v.cashBalanceBefore till start

/-- The net of the transfers, the opening balances and their reversals in the window. -/
def internalNet (v : Books) (start finish : Date) (till : Id) : Cents :=
  Rows.total (v.movements.filter (fun r => inWindow start finish r.2.date && v.isInternal r.2))
    (fun _ m => m.signedOn (.cash till))

end Books

section Change

variable {v : Books} {start finish : Date}

theorem cashChange_eq (ordered : start ≤ finish) (till : Id) : v.cashChange start finish till =
    Rows.total (v.movements.filter (fun r => inWindow start finish r.2.date)) (fun _ m => m.signedOn (.cash till)) := by
  unfold Books.cashChange Books.cashBalanceBefore
  rw [cashBalance_eq, cashBalance_eq]
  apply Int.sub_eq_iff_eq_add.mpr
  dsimp only
  rw [Rows.total_filter, Rows.total_filter, Rows.total_filter, ← Rows.total_add]
  apply Rows.total_congr
  intro r _
  simp only [inWindow, Int.lt_add_one_iff, Bool.and_eq_true, decide_eq_true_eq]
  by_cases early : r.2.date < start
  · rw [if_pos (early.le.trans ordered), if_neg (fun both => not_le.mpr early both.1), if_pos early, zero_add]
  · rw [if_neg early, add_zero]
    by_cases late : r.2.date ≤ finish
    · rw [if_pos late, if_pos ⟨not_lt.mp early, late⟩]
    · rw [if_neg late, if_neg (fun both => late both.2)]

theorem money_net (till : Id) : v.money start finish till .in - v.money start finish till .out =
    Rows.total (v.flows start finish) (fun _ m => m.signedOn (.cash till)) :=
  cashBalance_eq { v with movements := v.flows start finish } till

theorem signedOn_cash_none {m : Movement} (off : m.cashAccount = none) (till : Id) : m.signedOn (.cash till) = 0 := by
  unfold Movement.signedOn
  rw [off]

/-- Money in less money out is the change of the till's balance but for what
moved inside the firm. -/
theorem MirrorLaw.identity (law : MirrorLaw v) (ordered : start ≤ finish) (till : Id) :
    v.money start finish till .in - v.money start finish till .out =
      v.cashChange start finish till - v.internalNet start finish till := by
  have offsets : Rows.total (offsetOriginals v start finish) (fun _ m => m.signedOn (.cash till)) +
      Rows.total (offsetMirrors v start finish) (fun _ m => m.signedOn (.cash till)) = 0 := law.total_offsets _
  rw [money_net, cashChange_eq ordered, eq_sub_iff_add_eq, ← add_zero (Rows.total (v.flows start finish) _ + _),
    ← offsets]
  unfold Books.flows Books.internalNet offsetOriginals offsetMirrors
  simp only [Rows.total_filter, ← Rows.total_add]
  apply Rows.total_congr
  intro r _
  cases within : inWindow start finish r.2.date with
  | false => simp
  | true =>
      cases inside : v.isInternal r.2 with
      | true => simp
      | false =>
          cases offset : v.isOffset start finish r with
          | false =>
              cases side : r.2.cashAccount with
              | none => simp [signedOn_cash_none side]
              | some pair => simp
          | true => cases kind : r.2.reverses <;> simp

end Change

/-! ## The law of the summary -/

/-- What the figures of a firm's summary mean, for the books it sees. -/
structure SummaryLaw (v : Books) (start finish : Date) (summaries : List CurrencySummary) : Prop where
  identity : ∀ c ∈ summaries, ∀ line ∈ c.cashAccounts, line.moneyIn - line.moneyOut =
    v.cashChange start finish line.cashAccount - v.internalNet start finish line.cashAccount
  /-- A till that is not listed has no figures, and its identity is that of zeros. -/
  unlisted : ∀ till ∈ v.cashAccounts, (∃ c ∈ summaries, ∃ line ∈ c.cashAccounts, line.cashAccount = till.1) ∨
    (v.money start finish till.1 .in = 0 ∧ v.money start finish till.1 .out = 0 ∧
      v.cashChange start finish till.1 - v.internalNet start finish till.1 = 0)
  /-- A movement and its reversal, both within the window, are in no figure. -/
  offset : ∀ r ∈ v.movements, ∀ m ∈ v.movements, m.2.reverses = some r.1 ->
    inWindow start finish r.2.date = true -> inWindow start finish m.2.date = true ->
    r ∉ v.flows start finish ∧ m ∉ v.flows start finish
  totals : ∀ c ∈ summaries, c.moneyIn = (c.cashAccounts.map (·.moneyIn)).sum ∧
    c.moneyOut = (c.cashAccounts.map (·.moneyOut)).sum
  owed : ∀ c ∈ summaries, c.receivables - c.payables =
    Rows.total (v.accounts.filter (fun r => r.2.currency = c.currency)) (fun id _ => v.accountBalance id)
  currencies : ∀ account ∈ v.accounts, ∃ c ∈ summaries, c.currency = account.2.currency
  moved : ∀ till ∈ v.cashAccounts, ∀ r ∈ v.movements, r.2.on (.cash till.1) = true ->
    inWindow start finish r.2.date = true ->
    ∃ c ∈ summaries, c.currency = till.2.currency ∧ ∃ line ∈ c.cashAccounts, line.cashAccount = till.1

theorem balanceTotals_net (balances : List Cents) :
    (balanceTotals balances).1 - (balanceTotals balances).2 = balances.sum := by
  unfold balanceTotals
  induction balances with
  | nil => rfl
  | cons b balances ih =>
      rcases Int.lt_trichotomy b 0 with negative | rfl | positive
      · simp [negative, not_lt.mpr negative.le] at ih ⊢
        rw [← ih]
        abel
      · simpa using ih
      · simp [positive, not_lt.mpr positive.le] at ih ⊢
        rw [← ih]
        abel

section Law

variable {rank : Id -> Nat} {v : Books} {start finish : Date}

theorem mem_summaryOver {c : CurrencySummary} (mem : c ∈ summaryOver rank v start finish) :
    c = currencySummary rank v start finish c.currency := by
  rcases List.mem_map.mp mem with ⟨currency, _, rfl⟩
  rfl

theorem mem_listedTills {till : Id × CashAccount} :
    till ∈ listedTills rank v start finish ↔ till ∈ v.cashAccounts ∧ v.isListed start finish till = true := by
  unfold listedTills
  rw [List.mem_filter, List.mem_insertionSort]

theorem mem_cashLines {line : CashLine} {currency : String} (mem : line ∈ cashLines rank v start finish currency) :
    ∃ till ∈ v.cashAccounts, till.2.currency = currency ∧ line = v.cashLine start finish till := by
  rcases List.mem_map.mp mem with ⟨till, there, rfl⟩
  rcases List.mem_filter.mp there with ⟨listed, own⟩
  exact ⟨till, (mem_listedTills.mp listed).1, of_decide_eq_true own, rfl⟩

theorem summary_of_currency {currency : String} (mem : currency ∈ currencies rank v start finish) :
    currencySummary rank v start finish currency ∈ summaryOver rank v start finish := List.mem_map_of_mem mem

variable (rank) in
/-- A till that is listed is under its currency. -/
theorem listed_line {till : Id × CashAccount} (mem : till ∈ v.cashAccounts)
    (listed : v.isListed start finish till = true) : ∃ c ∈ summaryOver rank v start finish,
      c.currency = till.2.currency ∧ ∃ line ∈ c.cashAccounts, line.cashAccount = till.1 := by
  have there : till ∈ listedTills rank v start finish := mem_listedTills.mpr ⟨mem, listed⟩
  refine ⟨currencySummary rank v start finish till.2.currency, summary_of_currency ?_, rfl, v.cashLine start finish till, ?_, rfl⟩
  · unfold currencies
    rw [List.mem_insertionSort, List.mem_dedup, List.mem_append]
    exact Or.inl (List.mem_map_of_mem (f := fun r => r.2.currency) there)
  · exact List.mem_map_of_mem (List.mem_filter.mpr ⟨there, decide_eq_true rfl⟩)

theorem isListed_of_moved {till : Id × CashAccount} (moved : v.hasMoved start finish till.1 = true) :
    v.isListed start finish till = true := by
  unfold Books.isListed
  rw [moved, Bool.or_true, Bool.true_or]

theorem hasMoved_iff {till : Id} : v.hasMoved start finish till = true ↔
    ∃ r ∈ v.movements, r.2.on (.cash till) = true ∧ inWindow start finish r.2.date = true := by
  unfold Books.hasMoved
  rw [List.any_eq_true]
  simp only [Bool.and_eq_true]

/-- Without a movement in the window, nothing came in or went out. -/
theorem money_still {till : Id} (still : v.hasMoved start finish till = false) (direction : CashDirection) :
    v.money start finish till direction = 0 := by
  unfold Books.money Books.cashTotal
  apply Rows.total_zero
  intro r mem
  rcases List.mem_filter.mp mem with ⟨flow, side⟩
  rcases List.mem_filter.mp flow with ⟨there, kept⟩
  simp only [Bool.and_eq_true] at kept
  have moved : v.hasMoved start finish till = true := by
    refine hasMoved_iff.mpr ⟨r, there, ?_, kept.1.1.2⟩
    unfold Movement.on
    rw [of_decide_eq_true side]
    exact decide_eq_true rfl
  rw [still] at moved
  cases moved

end Law

theorem MirrorLaw.summary {v : Books} (law : MirrorLaw v) (rank : Id -> Nat) {start finish : Date}
    (ordered : start ≤ finish) : SummaryLaw v start finish (summaryOver rank v start finish) where
  identity c mem line at_line := by
    rw [mem_summaryOver mem] at at_line
    rcases mem_cashLines at_line with ⟨till, _, _, rfl⟩
    exact law.identity ordered till.1
  unlisted till mem := by
    cases moved : v.hasMoved start finish till.1 with
    | true =>
        rcases listed_line rank mem (isListed_of_moved moved) with ⟨c, at_c, _, line, at_line, own⟩
        exact Or.inl ⟨c, at_c, line, at_line, own⟩
    | false =>
        have net := law.identity ordered till.1
        rw [money_still moved, money_still moved, sub_zero] at net
        exact Or.inr ⟨money_still moved .in, money_still moved .out, net.symm⟩
  offset r at_r m at_m reverses within within' := by
    rcases law.original at_m reverses with ⟨o, at_o, found, original, _⟩
    have same : o = r.2 := congrArg Prod.snd (Rows.unique law.keys at_o at_r rfl)
    rw [same] at found original
    have first : v.isOffset start finish r = true := (isOffset_original original).mpr ⟨m, at_m, reverses, within'⟩
    have second : v.isOffset start finish m = true := by
      rw [law.isOffset_mirror at_m reverses found]
      exact within
    constructor
    · intro flow
      have kept := (List.mem_filter.mp flow).2
      rw [first, Bool.not_true, Bool.and_false] at kept
      cases kept
    · intro flow
      have kept := (List.mem_filter.mp flow).2
      rw [second, Bool.not_true, Bool.and_false] at kept
      cases kept
  totals c mem := by
    rw [mem_summaryOver mem]
    exact ⟨rfl, rfl⟩
  owed c mem := by
    rw [mem_summaryOver mem]
    exact balanceTotals_net _
  currencies account mem := by
    refine ⟨currencySummary rank v start finish account.2.currency, summary_of_currency ?_, rfl⟩
    unfold currencies
    rw [List.mem_insertionSort, List.mem_dedup, List.mem_append]
    exact Or.inr (List.mem_map_of_mem (f := fun r => r.2.currency) mem)
  moved till mem r at_r on within :=
    listed_line rank mem (isListed_of_moved (hasMoved_iff.mpr ⟨r, at_r, on, within⟩))

/-- In whatever books the ledger's requests leave, and for every firm, window and
order of its tills, the summary means what it says. -/
theorem finance_summary {v : Books} (reachable : Reachable v) (firm : Id) (rank : Id -> Nat) {start finish : Date}
    (ordered : start ≤ finish) :
    SummaryLaw (v.ofFirm firm) start finish (summaryOver rank (v.ofFirm firm) start finish) :=
  ((mirror_law reachable).ofFirm firm).summary rank ordered

/-- A collection kept and one cancelled, both in the window. -/
theorem finance_summary_smallBooks :
    SummaryLaw (smallBooks.ofFirm 3) 95 100 (summaryOver id (smallBooks.ofFirm 3) 95 100) ∧
      (summaryOver id (smallBooks.ofFirm 3) 95 100).map (fun c => (c.moneyIn, c.moneyOut, c.receivables)) =
        [(5000, 0, 8000)] :=
  ⟨finance_summary smallBooks_reachable 3 id (by decide), by decide +kernel⟩

end Ledger
end Shiftlush
