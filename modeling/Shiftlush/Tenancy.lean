import Shiftlush.Saves

namespace Shiftlush
namespace Tenancy

/-!
# Tenant scope

`core.context`, and what `TenantManager.get_queryset` and
`CompanyOwnedModel.save` make of it.  A scope is two variables that the blocks
`company_context` and `system_context` set and reset.  `exec` runs a program
with the variables, `lexical` one that knows the blocks it stands in, and the two
agree because every exit, an exception included, resets what its block has set.

`TenantManager` is the base manager too, so a save writes a stored row only where
the manager shows it.

`company_context` does not leave the system mode, so a block of a company
inside a system block is not confined to the company.
-/

open Saves (Kind Refusal)

abbrev CompanyId := Nat

/-- A row of a tenant model. -/
structure Row where
  id : Nat
  model : String
  company : Option CompanyId
  isDeleted : Bool
  fields : String
  deriving DecidableEq, Repr

abbrev Database := List Row

/-- Two rows stand under one primary key. -/
def Row.isAt (row old : Row) : Bool := decide (old.model = row.model ∧ old.id = row.id)

/-- The columns that `update_fields` may name. -/
inductive Column where
  | company
  | isDeleted
  | fields
  deriving DecidableEq, Repr

/-- An instance and how it is saved. -/
structure Save where
  adding : Bool
  updateFields : Option (List Column)
  row : Row
  deriving DecidableEq, Repr

/-- `_current_company_id` and `_system_mode` -/
structure Variables where
  currentCompany : Option CompanyId
  systemMode : Bool
  deriving DecidableEq, Repr

/-- The defaults of the two variables. -/
def Variables.unset : Variables := ⟨none, false⟩

inductive Block where
  | companyContext (company : Option CompanyId)
  | systemContext
  deriving DecidableEq, Repr

namespace Block

/-- What a block sets. -/
def enter : Block -> Variables -> Variables
  | .companyContext company, v => { v with currentCompany := company }
  | .systemContext, v => { v with currentCompany := none, systemMode := true }

/-- What its `finally` resets, to what `before` was when it set it. -/
def exit : Block -> Variables -> Variables -> Variables
  | .companyContext _, before, v => { v with currentCompany := before.currentCompany }
  | .systemContext, before, v =>
      { v with systemMode := before.systemMode, currentCompany := before.currentCompany }

def isSystem : Block -> Bool
  | .systemContext => true
  | .companyContext _ => false

theorem exit_enter (b : Block) (v : Variables) : b.exit v (b.enter v) = v := by
  cases b with
  | companyContext company => rfl
  | systemContext => rfl

end Block

/-- `SoftDeleteManager` on one model. -/
def live (db : Database) (model : String) : List Row :=
  db.filter (fun row => decide (row.model = model) && !row.isDeleted)

/-- `TenantManager.get_queryset` -/
def queryset (v : Variables) (db : Database) (model : String) : List Row :=
  if v.systemMode then live db model
  else
    match v.currentCompany with
    | none => []
    | some company => (live db model).filter (fun row => decide (row.company = some company))

/-- Whether `CompanyOwnedModel.save` raises. -/
def refuses (v : Variables) (row : Row) : Bool :=
  if v.systemMode then false
  else
    match v.currentCompany, row.company with
    | some active, some company => decide (company ≠ active)
    | _, _ => false

inductive Failure where
  | tenantMismatch (row : Row)
  | refused (refusal : Refusal)
  | raised (message : String)
  deriving DecidableEq, Repr

/-- A program of reads and saves in blocks.  What it goes on with may depend on
what it has read. -/
inductive Prog : Type -> Type 1 where
  | done {α : Type} (answer : α) : Prog α
  | raise {α : Type} (failure : Failure) : Prog α
  | query {α : Type} (model : String) (next : List Row -> Prog α) : Prog α
  | save {α : Type} (saved : Save) (next : Prog α) : Prog α
  | block {α β : Type} (b : Block) (body : Prog β) (next : β -> Prog α) : Prog α
  /-- `try … except` -/
  | attempt {α β : Type} (body : Prog β) (next : Except Failure β -> Prog α) : Prog α

namespace Save

def kind (saved : Save) : Kind :=
  if saved.adding then .new
  else
    match saved.updateFields with
    | none => .whole
    | some _ => .named

/-- The stored row after the `UPDATE`. -/
def written (saved : Save) (old : Row) : Row :=
  match saved.updateFields with
  | none => saved.row
  | some named =>
      { old with
        company := if .company ∈ named then saved.row.company else old.company
        isDeleted := if .isDeleted ∈ named then saved.row.isDeleted else old.isDeleted
        fields := if .fields ∈ named then saved.row.fields else old.fields }

/-- The `UPDATE` goes through the manager. -/
def reaches (shows : Row -> Bool) (saved : Save) (old : Row) : Bool := saved.row.isAt old && shows old

/-- `Model.save` through a base manager.  The column `company` is not null. -/
def store (shows : Row -> Bool) (saved : Save) (db : Database) : Except Failure Database :=
  if saved.updateFields = some [] then .ok db
  else
    match Saves.write shows saved.kind (db.find? saved.row.isAt) with
    | .error refusal => .error (.refused refusal)
    | .ok .insert => if saved.row.company = none then .error (.refused .integrityError) else .ok (db ++ [saved.row])
    | .ok .update =>
        if db.any (fun old => reaches shows saved old && decide ((saved.written old).company = none)) then
          .error (.refused .integrityError)
        else .ok (db.map (fun old => if reaches shows saved old then saved.written old else old))

end Save

/-- Run a program with the two variables. -/
def exec : {α : Type} -> Prog α -> Variables -> Database -> Except Failure α × Variables × Database
  | _, .done answer, v, db => (.ok answer, v, db)
  | _, .raise failure, v, db => (.error failure, v, db)
  | _, .query model next, v, db => exec (next (queryset v db model)) v db
  | _, .save saved next, v, db =>
      if refuses v saved.row then (.error (.tenantMismatch saved.row), v, db)
      else
        match saved.store (fun old => decide (old ∈ queryset v db old.model)) db with
        | .ok db => exec next v db
        | .error failure => (.error failure, v, db)
  | _, .block b body next, v, db =>
      match exec body (b.enter v) db with
      | (.ok answer, after, db) => exec (next answer) (b.exit v after) db
      | (.error failure, after, db) => (.error failure, b.exit v after, db)
  | _, .attempt body next, v, db =>
      match exec body v db with
      | (outcome, after, db) => exec (next outcome) after db

/-! ## Scope by the blocks a program stands in -/

/-- What a program may read and save, told by the blocks it stands in, the
innermost first. -/
structure Scope where
  sees : List Block -> Database -> String -> List Row
  refuses : List Block -> Row -> Bool

/-- Run a program that stands in `blocks`, without any variable. -/
def lexical (S : Scope) : {α : Type} -> Prog α -> List Block -> Database ->
    Except Failure α × Database
  | _, .done answer, _, db => (.ok answer, db)
  | _, .raise failure, _, db => (.error failure, db)
  | _, .query model next, blocks, db => lexical S (next (S.sees blocks db model)) blocks db
  | _, .save saved next, blocks, db =>
      if S.refuses blocks saved.row then (.error (.tenantMismatch saved.row), db)
      else
        match saved.store (fun old => decide (old ∈ S.sees blocks db old.model)) db with
        | .ok db => lexical S next blocks db
        | .error failure => (.error failure, db)
  | _, .block b body next, blocks, db =>
      match lexical S body (b :: blocks) db with
      | (.ok answer, db) => lexical S (next answer) blocks db
      | (.error failure, db) => (.error failure, db)
  | _, .attempt body next, blocks, db =>
      match lexical S body blocks db with
      | (outcome, db) => lexical S (next outcome) blocks db

/-- The variables inside some blocks. -/
def scopeOf : List Block -> Variables
  | [] => .unset
  | b :: outer => b.enter (scopeOf outer)

/-- What the two variables make of the blocks. -/
def Scope.ofVariables : Scope where
  sees blocks := queryset (scopeOf blocks)
  refuses blocks := Tenancy.refuses (scopeOf blocks)

/-- However a program ends, the scope it started in is in force again, and
inside it reads and saves go by the blocks alone. -/
theorem exec_eq_lexical {α : Type} (p : Prog α) (blocks : List Block) (db : Database) :
    exec p (scopeOf blocks) db =
      ((lexical .ofVariables p blocks db).1, scopeOf blocks, (lexical .ofVariables p blocks db).2) := by
  induction p generalizing blocks db with
  | done answer => rfl
  | raise failure => rfl
  | query model next ih => exact ih _ blocks db
  | save saved next ih =>
      unfold exec lexical
      have same : Scope.ofVariables.refuses blocks saved.row = refuses (scopeOf blocks) saved.row := rfl
      have seen : Scope.ofVariables.sees blocks = queryset (scopeOf blocks) := rfl
      rw [same, seen]
      by_cases refused : refuses (scopeOf blocks) saved.row = true
      · rw [if_pos refused, if_pos refused]
      · rw [if_neg refused, if_neg refused]
        cases saved.store (fun old => decide (old ∈ queryset (scopeOf blocks) db old.model)) db with
        | ok db' => exact ih blocks db'
        | error failure => rfl
  | block b body next ih_body ih_next =>
      have inner := ih_body (b :: blocks) db
      have entered : scopeOf (b :: blocks) = b.enter (scopeOf blocks) := rfl
      rw [entered] at inner
      unfold exec lexical
      rw [inner]
      cases outcome : lexical .ofVariables body (b :: blocks) db with
      | mk result db' =>
          cases result with
          | ok answer =>
              dsimp only
              rw [Block.exit_enter]
              exact ih_next answer blocks db'
          | error failure =>
              dsimp only
              rw [Block.exit_enter]
  | attempt body next ih_body ih_next =>
      unfold exec lexical
      rw [ih_body blocks db]
      exact ih_next _ blocks _

/-- A condition on the blocks of every read and save of a program. -/
def Everywhere (ok : List Block -> Prop) : {α : Type} -> Prog α -> List Block -> Prop
  | _, .done _, _ => True
  | _, .raise _, _ => True
  | _, .query _ next, blocks => ok blocks ∧ ∀ rows, Everywhere ok (next rows) blocks
  | _, .save _ next, blocks => ok blocks ∧ Everywhere ok next blocks
  | _, .block b body next, blocks =>
      Everywhere ok body (b :: blocks) ∧ ∀ answer, Everywhere ok (next answer) blocks
  | _, .attempt body next, blocks =>
      Everywhere ok body blocks ∧ ∀ outcome, Everywhere ok (next outcome) blocks

/-- Two scopes that agree wherever a program reads or saves run it alike. -/
theorem lexical_congr {S S' : Scope} {α : Type} {p : Prog α} {blocks : List Block}
    (agree : Everywhere (fun blocks => S.sees blocks = S'.sees blocks ∧
      S.refuses blocks = S'.refuses blocks) p blocks) (db : Database) :
    lexical S p blocks db = lexical S' p blocks db := by
  induction p generalizing blocks db with
  | done answer => rfl
  | raise failure => rfl
  | query model next ih =>
      unfold lexical
      rw [agree.1.1]
      exact ih _ (agree.2 _) db
  | save saved next ih =>
      unfold lexical
      rw [agree.1.1, agree.1.2]
      split
      · rfl
      · cases saved.store (fun old => decide (old ∈ S'.sees blocks db old.model)) db with
        | ok db' => exact ih agree.2 db'
        | error failure => rfl
  | block b body next ih_body ih_next =>
      unfold lexical
      rw [ih_body agree.1 db]
      cases lexical S' body (b :: blocks) db with
      | mk result db' =>
          cases result with
          | ok answer => exact ih_next answer (agree.2 answer) db'
          | error failure => rfl
  | attempt body next ih_body ih_next =>
      unfold lexical
      rw [ih_body agree.1 db]
      exact ih_next _ (agree.2 _) _

/-! ## The innermost block -/

/-- The scope a reader of the blocks expects: the innermost one decides. -/
def Scope.innermost : Scope where
  sees blocks db model :=
    match blocks with
    | [] => []
    | .systemContext :: _ => live db model
    | .companyContext none :: _ => []
    | .companyContext (some company) :: _ =>
        (live db model).filter (fun row => decide (row.company = some company))
  refuses blocks row :=
    match blocks, row.company with
    | .companyContext (some active) :: _, some company => decide (company ≠ active)
    | _, _ => false

/-- A block of a company stands inside a system block. -/
def shadowed : List Block -> Bool
  | .companyContext _ :: outer => outer.any Block.isSystem
  | _ => false

theorem systemMode_scopeOf (blocks : List Block) :
    (scopeOf blocks).systemMode = blocks.any Block.isSystem := by
  induction blocks with
  | nil => rfl
  | cons b outer ih =>
      cases b with
      | companyContext company => exact ih
      | systemContext => rfl

theorem scopeOf_innermost {blocks : List Block} (clear : shadowed blocks = false) :
    Scope.ofVariables.sees blocks = Scope.innermost.sees blocks ∧
      Scope.ofVariables.refuses blocks = Scope.innermost.refuses blocks := by
  cases blocks with
  | nil => exact ⟨rfl, rfl⟩
  | cons b outer =>
      cases b with
      | systemContext =>
          refine ⟨rfl, ?_⟩
          funext row
          cases row.company with
          | none => rfl
          | some company => rfl
      | companyContext company =>
          have off : (scopeOf (.companyContext company :: outer)).systemMode = false := by
            rw [systemMode_scopeOf]
            exact clear
          have current : (scopeOf (.companyContext company :: outer)).currentCompany = company := rfl
          constructor
          · funext db model
            change queryset (scopeOf (.companyContext company :: outer)) db model = _
            unfold queryset
            rw [off, current]
            cases company with
            | none => rfl
            | some company => rfl
          · funext row
            change refuses (scopeOf (.companyContext company :: outer)) row = _
            unfold refuses
            rw [off, current]
            cases company with
            | none => rfl
            | some active =>
                cases owner : row.company with
                | none => simp only [Scope.innermost, owner, Bool.false_eq_true, if_false]
                | some company => simp only [Scope.innermost, owner, Bool.false_eq_true, if_false]

/-- The default manager shows and the save guard refuses what the innermost
block says. -/
def Lawful (blocks : List Block) : Prop :=
  (∀ db model, queryset (scopeOf blocks) db model = Scope.innermost.sees blocks db model) ∧
    ∀ row, refuses (scopeOf blocks) row = Scope.innermost.refuses blocks row

/-- A live row of another company. -/
def foreign (company : Option CompanyId) : Row :=
  ⟨0, "customers.Customer", some ((company.map Nat.succ).getD 0), false, ""⟩

theorem lawful_iff (blocks : List Block) : Lawful blocks ↔ shadowed blocks = false := by
  constructor
  · intro lawful
    by_contra inside
    cases blocks with
    | nil => exact inside rfl
    | cons b outer =>
        cases b with
        | systemContext => exact inside rfl
        | companyContext company =>
            have inside : outer.any Block.isSystem = true := Bool.not_eq_false _ ▸ inside
            have seen := lawful.1 [foreign company] "customers.Customer"
            unfold queryset at seen
            rw [systemMode_scopeOf] at seen
            have on : (Block.companyContext company :: outer).any Block.isSystem = true := inside
            rw [if_pos on] at seen
            cases company with
            | none => cases seen
            | some company =>
                have other : ¬ some (company + 1) = some company := by
                  intro same
                  exact Nat.succ_ne_self company (Option.some.inj same)
                have hidden : Scope.innermost.sees (.companyContext (some company) :: outer)
                    [foreign (some company)] "customers.Customer" = [] := by
                  apply List.filter_eq_nil_iff.mpr
                  intro row mem mine
                  have listed := List.mem_of_mem_filter mem
                  rw [List.mem_singleton] at listed
                  subst listed
                  exact other (of_decide_eq_true mine)
                rw [hidden] at seen
                cases seen
  · intro clear
    rcases scopeOf_innermost clear with ⟨sees, refuses⟩
    constructor
    · intro db model
      exact congrFun (congrFun sees db) model
    · intro row
      exact congrFun refuses row

/-! ## Isolation between two companies -/

def ReadOnly : {α : Type} -> Prog α -> Prop
  | _, .done _ => True
  | _, .raise _ => True
  | _, .query _ next => ∀ rows, ReadOnly (next rows)
  | _, .save _ _ => False
  | _, .block _ body next => ReadOnly body ∧ ∀ answer, ReadOnly (next answer)
  | _, .attempt body next => ReadOnly body ∧ ∀ outcome, ReadOnly (next outcome)

/-- Two databases with the same rows of a company. -/
def SameFor (company : CompanyId) (db db' : Database) : Prop :=
  db.filter (fun row => decide (row.company = some company)) =
    db'.filter (fun row => decide (row.company = some company))

/-- The innermost block is one of this company. -/
def Within (company : CompanyId) (blocks : List Block) : Prop :=
  ∃ outer, blocks = .companyContext (some company) :: outer

theorem SameFor.seen {company : CompanyId} {db db' : Database} (same : SameFor company db db')
    {blocks : List Block} (within : Within company blocks) (model : String) :
    Scope.innermost.sees blocks db model = Scope.innermost.sees blocks db' model := by
  rcases within with ⟨outer, rfl⟩
  have split : ∀ db : Database, Scope.innermost.sees (.companyContext (some company) :: outer) db model =
      live (db.filter (fun row => decide (row.company = some company))) model :=
    fun db => List.filter_comm _ _ db
  rw [split, split, same]

theorem isolated {company : CompanyId} {db db' : Database} (same : SameFor company db db')
    {α : Type} {p : Prog α} {blocks : List Block} (within : Everywhere (Within company) p blocks)
    (reads : ReadOnly p) :
    (lexical .innermost p blocks db).1 = (lexical .innermost p blocks db').1 ∧
      (lexical .innermost p blocks db).2 = db ∧ (lexical .innermost p blocks db').2 = db' := by
  induction p generalizing blocks with
  | done answer => exact ⟨rfl, rfl, rfl⟩
  | raise failure => exact ⟨rfl, rfl, rfl⟩
  | query model next ih =>
      have rest := ih (Scope.innermost.sees blocks db' model) (within.2 _) (reads _)
      unfold lexical
      rw [same.seen within.1 model]
      exact rest
  | save saved next ih => exact absurd reads id
  | block b body next ih_body ih_next =>
      rcases ih_body within.1 reads.1 with ⟨results, left, right⟩
      unfold lexical
      cases first : lexical .innermost body (b :: blocks) db with
      | mk result left_db =>
          cases second : lexical .innermost body (b :: blocks) db' with
          | mk result' right_db =>
              rw [first] at results left
              rw [second] at results right
              subst results left right
              cases result with
              | ok answer => exact ih_next answer (within.2 answer) (reads.2 answer)
              | error failure => exact ⟨rfl, rfl, rfl⟩
  | attempt body next ih_body ih_next =>
      rcases ih_body within.1 reads.1 with ⟨results, left, right⟩
      unfold lexical
      cases first : lexical .innermost body blocks db with
      | mk result left_db =>
          cases second : lexical .innermost body blocks db' with
          | mk result' right_db =>
              rw [first] at results left
              rw [second] at results right
              subst results left right
              exact ih_next result (within.2 result) (reads.2 result)

theorem filter_map_of_kept {ρ : Type} {p : ρ -> Bool} {f : ρ -> ρ} {rows : List ρ}
    (kept : ∀ row ∈ rows, p (f row) = p row) (still : ∀ row, p row = true -> f row = row) :
    (rows.map f).filter p = rows.filter p := by
  induction rows with
  | nil => rfl
  | cons row rows ih =>
      have rest := ih (fun row mem => kept row (List.mem_cons_of_mem _ mem))
      rw [List.map_cons]
      by_cases here : p row = true
      · rw [still row here, List.filter_cons_of_pos here, List.filter_cons_of_pos here, rest]
      · have gone : ¬ p (f row) = true := kept row List.mem_cons_self ▸ here
        rw [List.filter_cons_of_neg here, List.filter_cons_of_neg gone, rest]

/-- What a save writes is of the company of the instance or of the row before. -/
theorem company_written (saved : Save) (old : Row) :
    (saved.written old).company = saved.row.company ∨ (saved.written old).company = old.company := by
  unfold Save.written
  cases saved.updateFields with
  | none => exact Or.inl rfl
  | some named =>
      dsimp only
      split
      · exact Or.inl rfl
      · exact Or.inr rfl

/-- A save within a company leaves the rows of the others. -/
theorem sameFor_store {company other : CompanyId} (different : other ≠ company) {shows : Row -> Bool} {saved : Save}
    {db db' : Database} (shown : ∀ old, shows old = true -> old.company = some company)
    (allowed : ∀ owner, saved.row.company = some owner -> owner = company)
    (stored : saved.store shows db = .ok db') : SameFor other db db' := by
  have own : ¬ saved.row.company = some other := fun here => different (allowed other here)
  unfold Save.store at stored
  split at stored
  · cases stored
    rfl
  · split at stored
    · cases stored
    · split at stored
      · cases stored
      · cases stored
        have gone : [saved.row].filter (fun row => decide (row.company = some other)) = [] := by
          rw [List.filter_singleton, decide_eq_false own]
          rfl
        unfold SameFor
        rw [List.filter_append, gone, List.append_nil]
    · split at stored
      · cases stored
      · cases stored
        have mine : ∀ old, saved.reaches shows old = true -> ¬ old.company = some other := by
          intro old reached here
          unfold Save.reaches at reached
          rw [Bool.and_eq_true] at reached
          exact different (Option.some.inj (here.symm.trans (shown old reached.2)))
        refine (filter_map_of_kept ?_ ?_).symm
        · intro old _
          split
          · rename_i reached
            rw [decide_eq_false (mine old reached), decide_eq_false_iff_not]
            rcases company_written saved old with same | same
            · rw [same]
              exact own
            · rw [same]
              exact mine old reached
          · rfl
        · intro old here
          rw [if_neg]
          exact fun reached => mine old reached (of_decide_eq_true here)

/-- What stands within a company leaves the rows of the others. -/
theorem undisturbed {company other : CompanyId} (different : other ≠ company) {α : Type} {p : Prog α}
    {blocks : List Block} (within : Everywhere (Within company) p blocks) (db : Database) :
    SameFor other db (lexical .innermost p blocks db).2 := by
  induction p generalizing blocks db with
  | done answer => rfl
  | raise failure => rfl
  | query model next ih => exact ih _ (within.2 _) db
  | save saved next ih =>
      rcases within.1 with ⟨outer, here⟩
      have shown : ∀ old, decide (old ∈ Scope.innermost.sees blocks db old.model) = true ->
          old.company = some company := by
        intro old listed
        rw [decide_eq_true_eq, here] at listed
        exact of_decide_eq_true (List.mem_filter.mp listed).2
      unfold lexical
      by_cases refused : Scope.innermost.refuses blocks saved.row = true
      · rw [if_pos refused]
        rfl
      · rw [if_neg refused]
        have allowed : ∀ owner, saved.row.company = some owner -> owner = company := by
          intro owner owned
          by_contra different
          apply refused
          rw [here]
          simp only [Scope.innermost, owned]
          exact decide_eq_true different
        cases stored : saved.store (fun old => decide (old ∈ Scope.innermost.sees blocks db old.model)) db with
        | error failure => rfl
        | ok db' => exact (sameFor_store different shown allowed stored).trans (ih within.2 db')
  | block b body next ih_body ih_next =>
      have inner := ih_body within.1 db
      unfold lexical
      cases first : lexical .innermost body (b :: blocks) db with
      | mk result db' =>
          rw [first] at inner
          cases result with
          | ok answer => exact inner.trans (ih_next answer (within.2 answer) db')
          | error failure => exact inner
  | attempt body next ih_body ih_next =>
      have inner := ih_body within.1 db
      unfold lexical
      cases first : lexical .innermost body blocks db with
      | mk result db' =>
          rw [first] at inner
          exact inner.trans (ih_next result (within.2 result) db')

theorem Everywhere.mono {ok ok' : List Block -> Prop} (weaker : ∀ blocks, ok blocks -> ok' blocks)
    {α : Type} {p : Prog α} {blocks : List Block} (everywhere : Everywhere ok p blocks) :
    Everywhere ok' p blocks := by
  induction p generalizing blocks with
  | done answer => trivial
  | raise failure => trivial
  | query model next ih => exact ⟨weaker _ everywhere.1, fun rows => ih rows (everywhere.2 rows)⟩
  | save saved next ih => exact ⟨weaker _ everywhere.1, ih everywhere.2⟩
  | block b body next ih_body ih_next =>
      exact ⟨ih_body everywhere.1, fun answer => ih_next answer (everywhere.2 answer)⟩
  | attempt body next ih_body ih_next =>
      exact ⟨ih_body everywhere.1, fun outcome => ih_next outcome (everywhere.2 outcome)⟩

theorem exec_of_clear {α : Type} {p : Prog α} {blocks : List Block}
    (clear : Everywhere (fun blocks => shadowed blocks = false) p blocks) (db : Database) :
    exec p (scopeOf blocks) db =
      ((lexical .innermost p blocks db).1, scopeOf blocks, (lexical .innermost p blocks db).2) := by
  have agree := lexical_congr (clear.mono (fun _ clear => scopeOf_innermost clear)) db
  rw [exec_eq_lexical, agree]

/-- Scope is lexical: every exit restores it, and the innermost block decides
wherever no block of a company stands inside a system block.  There, programs
of reads in a company cannot tell other companies' rows, and programs of saves in one leave
them as they are. -/
theorem tenant_scope (blocks : List Block) :
    (Lawful blocks ↔ shadowed blocks = false) ∧
    (∀ (α : Type) (p : Prog α) db,
      (exec p (scopeOf blocks) db).2.1 = scopeOf blocks) ∧
    (∀ (α : Type) (p : Prog α) db,
      Everywhere (fun blocks => shadowed blocks = false) p blocks ->
        ((exec p (scopeOf blocks) db).1, (exec p (scopeOf blocks) db).2.2) =
          lexical .innermost p blocks db) ∧
    (∀ (α : Type) (p : Prog α) company db db', SameFor company db db' -> ReadOnly p ->
      Everywhere (fun blocks => Within company blocks ∧ shadowed blocks = false) p blocks ->
        (exec p (scopeOf blocks) db).1 = (exec p (scopeOf blocks) db').1) ∧
    ∀ (α : Type) (p : Prog α) company other db, other ≠ company ->
      Everywhere (fun blocks => Within company blocks ∧ shadowed blocks = false) p blocks ->
        SameFor other db (exec p (scopeOf blocks) db).2.2 := by
  refine ⟨lawful_iff blocks, ?_, ?_, ?_, ?_⟩
  · intro α p db
    rw [exec_eq_lexical]
  · intro α p db clear
    rw [exec_of_clear clear]
  · intro α p company db db' same reads everywhere
    have clear := everywhere.mono (fun _ here => here.2)
    have within := everywhere.mono (fun _ here => here.1)
    rw [exec_of_clear clear, exec_of_clear clear]
    exact (isolated same within reads).1
  · intro α p company other db different everywhere
    rw [exec_of_clear (everywhere.mono (fun _ here => here.2))]
    exact undisturbed different (everywhere.mono (fun _ here => here.1)) db

theorem company_inside_system : ¬ ∀ blocks, Lawful blocks := by
  intro lawful
  have clear := (lawful_iff [.companyContext (some 1), .systemContext]).mp (lawful _)
  cases clear

end Tenancy
end Shiftlush
