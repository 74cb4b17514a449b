import Shiftlush.Outcomes
import Shiftlush.Payloads

namespace Shiftlush
namespace Observability

open Payload (Step assign pop)

/-!
# Error reports

`core.observability`.  The filter takes parts of the request away, prunes its headers and
the extras six levels deep, and sends every other part of the event as it is.
-/

/-- What the code asks of Python: `str.lower` and `str`. -/
structure Builtins where
  lower : String -> String
  str : Payload -> String
  ascii : ∀ text : String, (∀ c ∈ text.toList, c.toNat < 128) -> lower text = text.toLower

/-- `get_current_company_id` and the identifier of `get_current_actor`. -/
structure Context where
  companyId : Option String
  userId : Option String

inductive Raised where
  | attributeError
  | typeError
  deriving DecidableEq, Repr

/-- `SENSITIVE_KEYS` -/
def sensitiveKeys : List String :=
  ["password", "current_password", "new_password", "national_id", "token", "refresh", "access", "token_hash", "qr_token",
    "authorization", "cookie", "set-cookie", "x-csrftoken", "idempotency-key"]

/-- `REDACTED` -/
def redacted : Payload := .text "[redacted]"

variable (b : Builtins)

/-- `str(key).lower() in SENSITIVE_KEYS` -/
def isSensitive (name : String) : Bool := decide (b.lower name ∈ sensitiveKeys)

/-- `_prune`, so many levels before `depth > 6`. -/
def pruneLevels : Nat -> Payload -> Payload
  | 0, value => value
  | left + 1, .dict items =>
      .dict (items.map (fun item => (item.1, if isSensitive b item.1 then redacted else pruneLevels left item.2)))
  | left + 1, .list items => .list (items.map (pruneLevels left))
  | _ + 1, value => value

/-- `_prune` -/
def prune (value : Payload) : Payload := pruneLevels b 7 value

/-- What is left of the request. -/
def scrub (request : List (String × Payload)) : List (String × Payload) :=
  let request := pop "env" (pop "cookies" (pop "data" request))
  let request :=
    match request.lookup "headers" with
    | some (.dict headers) => assign "headers" (prune b (.dict headers)) request
    | _ => request
  pop "query_string" request

/-- `event.get("extra") or {}` -/
def extraOf (event : List (String × Payload)) : Payload :=
  match event.lookup "extra" with
  | some extra => if extra.truthy then extra else .dict []
  | none => .dict []

/-- `event.setdefault("tags", {})` -/
def withTags (event : List (String × Payload)) : List (String × Payload) :=
  if (event.lookup "tags").isSome then event else assign "tags" (.dict []) event

/-- `tags[name] = text`, if there is one. -/
def tag (name : String) (text : Option String) (event : List (String × Payload)) :
    Except Raised (List (String × Payload)) :=
  match text with
  | none => .ok event
  | some text =>
      match event.lookup "tags" with
      | some (.dict tags) => .ok (assign "tags" (.dict (assign name (.text text) tags)) event)
      | _ => .error .typeError

/-- The request of an event, scrubbed. -/
def withRequest (event : List (String × Payload)) : List (String × Payload) :=
  match event.lookup "request" with
  | some (.dict request) => assign "request" (.dict (scrub b request)) event
  | _ => event

/-- The user of an event, by the identifier alone. -/
def withUser (context : Context) (event : List (String × Payload)) : List (String × Payload) :=
  match context.userId with
  | some id => assign "user" (.dict [("id", .text id)]) event
  | none => pop "user" event

/-- `before_send` -/
def beforeSend (context : Context) (event : List (String × Payload)) : Except Raised (List (String × Payload)) := do
  let event := withRequest b event
  let extra := prune b (extraOf event)
  let event ← tag "company_id" context.companyId (withTags (assign "extra" extra event))
  let event := withUser context event
  match extra with
  | .dict items => tag "request_id" (((items.lookup "request_id").filter Payload.truthy).map b.str) event
  | _ => .error .attributeError

/-! ## Paths -/

/-- A key on the path, so many steps from its start, is sensitive. -/
def covered : Nat -> List Step -> Bool
  | 0, _ => false
  | _, [] => false
  | left + 1, .key name :: path => isSensitive b name || covered left path
  | left + 1, .index _ :: path => covered left path

/-- The path leads to a value under a sensitive key. -/
def ends : List Step -> Bool
  | [] => false
  | [.key name] => isSensitive b name
  | _ :: path => ends path

variable {b}

theorem isSensitive_eq {name : String} (ascii : ∀ c ∈ name.toList, c.toNat < 128) :
    isSensitive b name = decide (name.toLower ∈ sensitiveKeys) := by
  unfold isSensitive
  rw [b.ascii name ascii]

theorem ends_append (path : List Step) (name : String) :
    ends b (path ++ [.key name]) = isSensitive b name := by
  induction path with
  | nil => rfl
  | cons step path ih =>
      rw [← ih, List.cons_append]
      cases path with
      | nil => cases step <;> rfl
      | cons next path => cases step <;> rfl

/-- What ends at a sensitive key within so many steps is covered. -/
theorem covered_of_ends {left : Nat} {path : List Step} (sensitive : ends b path = true) (short : path.length ≤ left) :
    covered b left path = true := by
  induction path generalizing left with
  | nil => cases sensitive
  | cons step path ih =>
      cases left with
      | zero => exact absurd short (Nat.not_succ_le_zero _)
      | succ left =>
          have shorter : path.length ≤ left := Nat.le_of_succ_le_succ short
          cases path with
          | nil =>
              cases step with
              | key name =>
                  have here : isSensitive b name = true := sensitive
                  unfold covered
                  rw [here, Bool.true_or]
              | index i => cases sensitive
          | cons next path =>
              have rest : ends b (next :: path) = true := by
                cases step <;> exact sensitive
              cases step with
              | key name =>
                  unfold covered
                  rw [ih rest shorter, Bool.or_true]
              | index i => exact ih rest shorter

/-! ## Pruning -/

theorem pruneLevels_list (left : Nat) (items : List Payload) :
    pruneLevels b (left + 1) (.list items) = .list (items.map (pruneLevels b left)) := rfl

theorem lookup_pruned (left : Nat) (items : List (String × Payload)) (name : String) :
    (items.map (fun item => (item.1, if isSensitive b item.1 then redacted else pruneLevels b left item.2))).lookup name =
      (items.lookup name).map (fun value => if isSensitive b name then redacted else pruneLevels b left value) :=
  Payload.lookup_map (f := fun name value => if isSensitive b name then redacted else pruneLevels b left value) items name

theorem node_pruneLevels (left : Nat) (value : Payload) : (pruneLevels b left value).node = value.node := by
  cases left with
  | zero => rfl
  | succ left =>
      cases value with
      | dict items =>
          have names : (items.map (fun item =>
              (item.1, if isSensitive b item.1 then redacted else pruneLevels b left item.2))).map Prod.fst =
                items.map Prod.fst := by
            rw [List.map_map]
            rfl
          exact congrArg Payload.Node.dict names
      | list items => exact congrArg Payload.Node.list (List.length_map _)
      | _ => rfl

theorem truthy_pruneLevels (left : Nat) (value : Payload) : (pruneLevels b left value).truthy = value.truthy := by
  cases left with
  | zero => rfl
  | succ left =>
      cases value with
      | dict items => exact congrArg not List.isEmpty_map
      | list items => exact congrArg not List.isEmpty_map
      | _ => rfl

/-- Off the covered paths everything stays, and is pruned as deep as there is left. -/
theorem reach_pruneLevels {left : Nat} {path : List Step} (free : covered b left path = false) (value : Payload) :
    (pruneLevels b left value).reach path = (value.reach path).map (pruneLevels b (left - path.length)) := by
  induction path generalizing left value with
  | nil =>
      rw [Payload.reach_nil, Payload.reach_nil]
      rfl
  | cons step path ih =>
      cases left with
      | zero =>
          rw [Nat.zero_sub]
          exact Option.map_id'.symm
      | succ left =>
          rw [List.length_cons, Nat.add_sub_add_right]
          cases value with
          | dict items =>
              cases step with
              | index i => rfl
              | key name =>
                  unfold covered at free
                  rw [Bool.or_eq_false_iff] at free
                  unfold pruneLevels
                  rw [Payload.reach_dict, Payload.reach_dict, lookup_pruned, free.1]
                  cases items.lookup name with
                  | none => rfl
                  | some value => exact ih free.2 value
          | list items =>
              cases step with
              | key name => rfl
              | index i =>
                  rw [pruneLevels_list, Payload.reach_list, Payload.reach_list, List.getElem?_map]
                  cases items[i]? with
                  | none => rfl
                  | some value => exact ih free value
          | _ => cases step <;> rfl

/-- On a covered path nothing but the mark is left. -/
theorem redacted_of_covered {left : Nat} {path : List Step} (hidden : covered b left path = true) {value found : Payload}
    (reached : (pruneLevels b left value).reach path = some found) : found = redacted := by
  induction path generalizing left value with
  | nil =>
      cases left <;> cases hidden
  | cons step path ih =>
      cases left with
      | zero => cases hidden
      | succ left =>
          cases value with
          | dict items =>
              cases step with
              | index i => cases reached
              | key name =>
                  unfold pruneLevels at reached
                  rw [Payload.reach_dict, lookup_pruned] at reached
                  cases there : items.lookup name with
                  | none =>
                      rw [there] at reached
                      cases reached
                  | some inner =>
                      rw [there] at reached
                      unfold covered at hidden
                      cases here : isSensitive b name with
                      | true =>
                          rw [here] at reached
                          exact (Payload.eq_nil_of_reach_text reached).2
                      | false =>
                          rw [here] at reached hidden
                          exact ih hidden reached
          | list items =>
              cases step with
              | key name => cases reached
              | index i =>
                  rw [pruneLevels_list, Payload.reach_list, List.getElem?_map] at reached
                  cases there : items[i]? with
                  | none =>
                      rw [there] at reached
                      cases reached
                  | some inner =>
                      rw [there] at reached
                      exact ih hidden reached
          | _ =>
              cases step <;> cases reached

end Observability
end Shiftlush
