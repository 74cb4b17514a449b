import Mathlib.Tactic.Common

namespace Shiftlush

/-!
# Nested dictionaries and lists

What JSON can write.  A path says how to come from a payload to one that lies in it.
-/

inductive Payload where
  | null
  | text (value : String)
  | number (value : Int)
  | flag (value : Bool)
  | dict (items : List (String × Payload))
  | list (items : List Payload)

namespace Payload

/-- One step into a payload. -/
inductive Step where
  | key (name : String)
  | index (i : Nat)
  deriving DecidableEq

/-- `bool(value)` -/
def truthy : Payload -> Bool
  | .null => false
  | .text value => !value.isEmpty
  | .number value => decide (value ≠ 0)
  | .flag value => value
  | .dict items => !items.isEmpty
  | .list items => !items.isEmpty

/-- What lies at the end of a path. -/
def reach : Payload -> List Step -> Option Payload
  | value, [] => some value
  | .dict items, .key name :: path => (items.lookup name).bind (fun value => value.reach path)
  | .list items, .index i :: path => (items[i]?).bind (fun value => value.reach path)
  | _, _ :: _ => none

/-- `dict[name] = value`: a key there is keeps its place. -/
def assign (name : String) (value : Payload) (items : List (String × Payload)) : List (String × Payload) :=
  if (items.lookup name).isSome then items.map (fun item => if item.1 = name then (name, value) else item)
  else items ++ [(name, value)]

/-- `dict.pop(name, None)` -/
def pop (name : String) (items : List (String × Payload)) : List (String × Payload) :=
  items.filter (fun item => decide (item.1 ≠ name))

/-- A payload but for what lies in it. -/
inductive Node where
  | leaf (value : Payload)
  | dict (names : List String)
  | list (length : Nat)

def node : Payload -> Node
  | .dict items => .dict (items.map Prod.fst)
  | .list items => .list items.length
  | value => .leaf value

variable {items : List (String × Payload)} {name other : String} {value : Payload}

theorem lookup_map {f : String -> Payload -> Payload} (items : List (String × Payload)) (name : String) :
    (items.map (fun item => (item.1, f item.1 item.2))).lookup name = (items.lookup name).map (f name) := by
  induction items with
  | nil => rfl
  | cons item items ih =>
      rw [List.map_cons, List.lookup_cons, List.lookup_cons]
      cases same : name == item.1 with
      | true =>
          rw [eq_of_beq same]
          rfl
      | false => exact ih

theorem lookup_pop (name other : String) (items : List (String × Payload)) :
    (pop name items).lookup other = if other = name then none else items.lookup other := by
  induction items with
  | nil =>
      unfold pop
      split <;> rfl
  | cons item items ih =>
      unfold pop at ih ⊢
      rw [List.filter_cons]
      by_cases gone : item.1 = name
      · rw [if_neg (by rw [decide_eq_true_eq]; exact not_not.mpr gone), ih, List.lookup_cons]
        split
        · rfl
        · rename_i different
          rw [gone, beq_false_of_ne different]
      · rw [if_pos (decide_eq_true gone), List.lookup_cons, List.lookup_cons]
        cases same : other == item.1 with
        | true =>
            rw [if_neg (fun here => gone ((eq_of_beq same).symm.trans here))]
        | false => exact ih

theorem lookup_append (items rest : List (String × Payload)) (name : String) :
    (items ++ rest).lookup name = (items.lookup name).or (rest.lookup name) := by
  induction items with
  | nil => rfl
  | cons item items ih =>
      rw [List.cons_append, List.lookup_cons, List.lookup_cons]
      cases name == item.1 with
      | true => rfl
      | false => exact ih

theorem lookup_assign (name other : String) (value : Payload) (items : List (String × Payload)) :
    (assign name value items).lookup other = if other = name then some value else items.lookup other := by
  unfold assign
  split
  · rename_i there
    have same : (fun item : String × Payload => if item.1 = name then (name, value) else item) =
        fun item => (item.1, if item.1 = name then value else item.2) := by
      funext item
      split
      · rename_i here
        rw [here]
      · rfl
    rw [same, lookup_map (f := fun key old => if key = name then value else old)]
    obtain ⟨old, found⟩ := Option.isSome_iff_exists.mp there
    split
    · rename_i here
      rw [here, found, Option.map_some]
    · exact Option.map_id'
  · rename_i missing
    rw [lookup_append, List.lookup_cons, List.lookup_nil]
    by_cases here : other = name
    · rw [here, Option.not_isSome_iff_eq_none.mp missing, beq_self_eq_true, if_pos rfl]
      rfl
    · rw [beq_false_of_ne here, if_neg here]
      exact Option.or_none

@[simp] theorem reach_nil (value : Payload) : value.reach [] = some value := by
  cases value <;> rfl

@[simp] theorem reach_dict (items : List (String × Payload)) (name : String) (path : List Step) :
    (dict items).reach (.key name :: path) = (items.lookup name).bind (fun value => value.reach path) := rfl

@[simp] theorem reach_list (items : List Payload) (i : Nat) (path : List Step) :
    (list items).reach (.index i :: path) = (items[i]?).bind (fun value => value.reach path) := rfl

@[simp] theorem reach_dict_index (items : List (String × Payload)) (i : Nat) (path : List Step) :
    (dict items).reach (.index i :: path) = none := rfl

@[simp] theorem reach_list_key (items : List Payload) (name : String) (path : List Step) :
    (list items).reach (.key name :: path) = none := rfl

theorem reach_append (value : Payload) (path rest : List Step) :
    value.reach (path ++ rest) = (value.reach path).bind (fun inner => inner.reach rest) := by
  induction path generalizing value with
  | nil =>
      rw [List.nil_append, reach_nil]
      rfl
  | cons step path ih =>
      cases value with
      | dict items =>
          cases step with
          | index i => rfl
          | key name =>
              rw [List.cons_append, reach_dict, reach_dict]
              cases items.lookup name with
              | none => rfl
              | some inner => exact ih inner
      | list items =>
          cases step with
          | key name => rfl
          | index i =>
              rw [List.cons_append, reach_list, reach_list]
              cases items[i]? with
              | none => rfl
              | some inner => exact ih inner
      | _ => cases step <;> rfl

/-- Nothing lies in a text. -/
theorem eq_nil_of_reach_text {text : String} {path : List Step} (reached : (Payload.text text).reach path = some value) :
    path = [] ∧ value = .text text := by
  cases path with
  | nil => exact ⟨rfl, (Option.some.inj reached).symm⟩
  | cons step path =>
      cases step <;> cases reached

end Payload
end Shiftlush
