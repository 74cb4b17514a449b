import Shiftlush.Observability
import Mathlib.Data.Bool.AllAny

namespace Shiftlush
namespace Observability

open Payload (Step assign pop)

/-!
# What an error report lets through

A value under a sensitive key stays in the report where neither the filter takes away or
replaces what it lies in, nor the pruning comes as deep.
-/

variable (b : Builtins)

/-- The identifier of the request, if it says anything. -/
def requestIdOf (event : List (String × Payload)) : Option Payload :=
  match extraOf event with
  | .dict items => (items.lookup "request_id").filter Payload.truthy
  | _ => none

/-- The tags that are set anew. -/
def isTagged (context : Context) (event : List (String × Payload)) (name : String) : Bool :=
  decide (name = "company_id") && context.companyId.isSome || decide (name = "request_id") && (requestIdOf event).isSome

/-- What lies on a path does not stay: it is pruned, taken away or replaced. -/
def withheld (context : Context) (event : List (String × Payload)) : List Step -> Bool
  | .key "user" :: _ => true
  | .key "extra" :: path => covered b 7 path
  | .key "request" :: .key "headers" :: .key name :: path => covered b 7 (.key name :: path)
  | .key "request" :: .key name :: _ => decide (name ∈ ["data", "cookies", "env", "query_string"])
  | .key "tags" :: .key name :: _ => isTagged context event name
  | _ => false

/-- The extras are a dictionary, and so are the tags where one is set. -/
def Sendable (context : Context) (event : List (String × Payload)) : Prop :=
  (∃ items, extraOf event = .dict items) ∧
    (context.companyId.isSome = true ∨ (requestIdOf event).isSome = true ->
      ∃ tags, (event.lookup "tags").getD (.dict []) = .dict tags)

variable {b} {context : Context} {event sent : List (String × Payload)}

/-! ## Parts of an event -/

theorem isSensitive_part {name : String} (part : name ∈ ["request", "extra", "tags", "user", "id", "headers", "data",
    "cookies", "env", "query_string", "company_id", "request_id"]) : isSensitive b name = false := by
  simp only [List.mem_cons, List.not_mem_nil, or_false] at part
  rcases part with rfl | rfl | rfl | rfl | rfl | rfl | rfl | rfl | rfl | rfl | rfl | rfl
  all_goals
    rw [isSensitive_eq (List.all_iff_forall_prop.mp (by decide))]
    decide +kernel

theorem lookup_withRequest {part : String} (other : part ≠ "request") :
    (withRequest b event).lookup part = event.lookup part := by
  unfold withRequest
  split
  · rw [Payload.lookup_assign, if_neg other]
  · rfl

theorem extraOf_withRequest : extraOf (withRequest b event) = extraOf event := by
  unfold extraOf
  rw [lookup_withRequest (by decide)]

theorem lookup_withTags (part : String) :
    (withTags event).lookup part = if part = "tags" then some ((event.lookup "tags").getD (.dict [])) else event.lookup part := by
  unfold withTags
  cases there : event.lookup "tags" with
  | none =>
      rw [Option.isSome_none, if_neg Bool.false_ne_true, Payload.lookup_assign]
      rfl
  | some tags =>
      rw [Option.isSome_some, if_pos rfl]
      split
      · rename_i here
        rw [here, there]
        rfl
      · rfl

theorem lookup_withUser {part : String} (other : part ≠ "user") :
    (withUser context event).lookup part = event.lookup part := by
  unfold withUser
  split
  · rw [Payload.lookup_assign, if_neg other]
  · rw [Payload.lookup_pop, if_neg other]

theorem lookup_user : (withUser context event).lookup "user" = context.userId.map (fun id => .dict [("id", .text id)]) := by
  unfold withUser
  split
  · rename_i id known
    rw [Payload.lookup_assign, if_pos rfl, known]
    rfl
  · rename_i unknown
    rw [Payload.lookup_pop, if_pos rfl, unknown]
    rfl

theorem lookup_tag {name part : String} {text : Option String} {tagged : List (String × Payload)}
    (ok : tag name text event = .ok tagged) (other : part ≠ "tags") : tagged.lookup part = event.lookup part := by
  unfold tag at ok
  split at ok
  · cases ok
    rfl
  · split at ok
    · cases ok
      rw [Payload.lookup_assign, if_neg other]
    · cases ok

/-! ## Tags -/

/-- The tags stay but for some keys, whose values have nothing in them now. -/
structure KeepsBut (gone : String -> Bool) (tags tags' : Payload) : Prop where
  index : ∀ i path, tags'.reach (.index i :: path) = tags.reach (.index i :: path)
  kept : ∀ name path, gone name = false -> tags'.reach (.key name :: path) = tags.reach (.key name :: path)
  gone : ∀ name path found, gone name = true -> tags'.reach (.key name :: path) = some found -> path = []

theorem KeepsBut.trans {gone gone' : String -> Bool} {first second third : Payload} (keeps : KeepsBut gone first second)
    (keeps' : KeepsBut gone' second third) : KeepsBut (fun name => gone name || gone' name) first third := by
  refine ⟨fun i path => (keeps'.index i path).trans (keeps.index i path), ?_, ?_⟩
  · intro name path both
    rw [Bool.or_eq_false_iff] at both
    exact (keeps'.kept name path both.2).trans (keeps.kept name path both.1)
  · intro name path found either reached
    cases here : gone' name with
    | true => exact keeps'.gone name path found here reached
    | false =>
        rw [here, Bool.or_false] at either
        rw [keeps'.kept name path here] at reached
        exact keeps.gone name path found either reached

theorem tags_tag {name : String} {text : Option String} {tagged : List (String × Payload)} {tags : Payload}
    (ok : tag name text event = .ok tagged) (there : event.lookup "tags" = some tags) :
    ∃ tags', tagged.lookup "tags" = some tags' ∧
      KeepsBut (fun key => decide (key = name) && text.isSome) tags tags' ∧
      ((∃ items, tags = .dict items) -> ∃ items, tags' = .dict items) := by
  unfold tag at ok
  split at ok
  · cases ok
    refine ⟨tags, there, ⟨fun _ _ => rfl, fun _ _ _ => rfl, ?_⟩, id⟩
    intro key path found here
    rw [Option.isSome_none, Bool.and_false] at here
    cases here
  · rename_i text
    rw [there] at ok
    split at ok
    · rename_i items known
      cases known
      cases ok
      refine ⟨.dict (assign name (.text text) items), by rw [Payload.lookup_assign, if_pos rfl],
        ⟨fun _ _ => rfl, ?_, ?_⟩, fun _ => ⟨_, rfl⟩⟩
      · intro key path other
        rw [Option.isSome_some, Bool.and_true, decide_eq_false_iff_not] at other
        rw [Payload.reach_dict, Payload.reach_dict, Payload.lookup_assign, if_neg other]
      · intro key path found here reached
        rw [Option.isSome_some, Bool.and_true, decide_eq_true_eq] at here
        rw [Payload.reach_dict, Payload.lookup_assign, if_pos here] at reached
        exact (Payload.eq_nil_of_reach_text reached).1
    · cases ok

theorem tag_ok_iff {name : String} {text : Option String} {tags : Payload} (there : event.lookup "tags" = some tags) :
    (∃ tagged, tag name text event = .ok tagged) ↔ (text.isSome = true -> ∃ items, tags = .dict items) := by
  unfold tag
  cases text with
  | none => exact ⟨fun _ impossible => absurd impossible Bool.false_ne_true, fun _ => ⟨event, rfl⟩⟩
  | some text =>
      dsimp only
      rw [there]
      constructor
      · rintro ⟨tagged, ok⟩ _
        split at ok
        · rename_i items known
          exact ⟨items, Option.some.inj known⟩
        · cases ok
      · intro dict
        obtain ⟨items, rfl⟩ := dict rfl
        exact ⟨_, rfl⟩

/-! ## The report -/

theorem prune_dict {value : Payload} {items : List (String × Payload)} (dict : prune b value = .dict items) :
    ∃ before, value = .dict before ∧
      ∀ name, isSensitive b name = false -> items.lookup name = (before.lookup name).map (pruneLevels b 6) := by
  unfold prune at dict
  cases value with
  | dict before =>
      refine ⟨before, rfl, ?_⟩
      intro name plain
      cases dict
      rw [lookup_pruned, plain]
      rfl
  | _ => cases dict

theorem filter_truthy (value : Option Payload) (left : Nat) :
    ((value.map (pruneLevels b left)).filter Payload.truthy).isSome = (value.filter Payload.truthy).isSome := by
  cases value with
  | none => rfl
  | some value =>
      rw [Option.map_some, Option.filter_some, Option.filter_some, truthy_pruneLevels]
      split <;> rfl

/-- What the filter answers with, part by part. -/
structure Report (b : Builtins) (context : Context) (event sent : List (String × Payload)) : Prop where
  sendable : Sendable context event
  other : ∀ part, part ∉ ["request", "extra", "tags", "user"] -> sent.lookup part = event.lookup part
  request : sent.lookup "request" = (withRequest b event).lookup "request"
  extra : sent.lookup "extra" = some (prune b (extraOf event))
  user : sent.lookup "user" = context.userId.map (fun id => .dict [("id", .text id)])
  tags : ∃ tags, sent.lookup "tags" = some tags ∧
    KeepsBut (isTagged context event) ((event.lookup "tags").getD (.dict [])) tags

variable (b event) in
theorem lookup_started (part : String) :
    (withTags (assign "extra" (prune b (extraOf event)) (withRequest b event))).lookup part =
      if part = "tags" then some ((event.lookup "tags").getD (.dict []))
      else if part = "extra" then some (prune b (extraOf event)) else (withRequest b event).lookup part := by
  have tags : (assign "extra" (prune b (extraOf event)) (withRequest b event)).lookup "tags" = event.lookup "tags" := by
    rw [Payload.lookup_assign, if_neg (by decide), lookup_withRequest (by decide)]
  rw [lookup_withTags, tags, Payload.lookup_assign]

theorem report_of_ok (ok : beforeSend b context event = .ok sent) : Report b context event sent := by
  unfold beforeSend at ok
  dsimp only at ok
  rw [extraOf_withRequest] at ok
  obtain ⟨marked, first, ok⟩ := bind_ok.mp ok
  have started := lookup_started b event
  have tagsThere := (started "tags").trans (if_pos rfl)
  obtain ⟨tags, there, keeps, _⟩ := tags_tag first tagsThere
  have there : (withUser context marked).lookup "tags" = some tags := by
    rw [lookup_withUser (by decide), there]
  split at ok
  · rename_i items dict
    obtain ⟨before, extra, names⟩ := prune_dict dict
    have requestId : ((items.lookup "request_id").filter Payload.truthy).isSome = (requestIdOf event).isSome := by
      unfold requestIdOf
      rw [extra, names "request_id" (isSensitive_part (by decide)), filter_truthy]
    obtain ⟨tags', there', keeps', _⟩ := tags_tag ok there
    have fromStart : ∀ part, part ≠ "tags" -> part ≠ "user" -> sent.lookup part =
        (withTags (assign "extra" (prune b (extraOf event)) (withRequest b event))).lookup part := by
      intro part notTags notUser
      rw [lookup_tag ok notTags, lookup_withUser notUser, lookup_tag first notTags]
    refine ⟨⟨⟨before, extra⟩, ?_⟩, ?_, ?_, ?_, ?_, tags', there', ?_⟩
    · intro either
      cases company : context.companyId with
      | some id => exact (tag_ok_iff tagsThere).mp ⟨marked, first⟩ (by rw [company]; rfl)
      | none =>
          have unmarked := first
          rw [company] at unmarked
          cases unmarked
          have same : some tags = some ((event.lookup "tags").getD (.dict [])) :=
            there.symm.trans ((lookup_withUser (by decide)).trans tagsThere)
          have second := (tag_ok_iff there).mp ⟨sent, ok⟩
          rw [Option.isSome_map, requestId, Option.some.inj same] at second
          rcases either with impossible | request
          · rw [company] at impossible
            cases impossible
          · exact second request
    · intro part rest
      simp only [List.mem_cons, List.not_mem_nil, or_false, not_or] at rest
      rw [fromStart part rest.2.2.1 rest.2.2.2, started, if_neg rest.2.2.1, if_neg rest.2.1,
        lookup_withRequest rest.1]
    · rw [fromStart "request" (by decide) (by decide), started, if_neg (by decide), if_neg (by decide)]
    · rw [fromStart "extra" (by decide) (by decide), started, if_neg (by decide), if_pos rfl]
    · rw [lookup_tag ok (by decide), lookup_user]
    · rw [Option.isSome_map, requestId] at keeps'
      exact keeps.trans keeps'
  · cases ok

theorem ok_of_sendable (sendable : Sendable context event) : ∃ sent, beforeSend b context event = .ok sent := by
  obtain ⟨⟨before, extra⟩, dict⟩ := sendable
  have tagsThere := (lookup_started b event "tags").trans (if_pos rfl)
  have first : ∃ marked, tag "company_id" context.companyId _ = .ok marked :=
    (tag_ok_iff tagsThere).mpr (fun company => dict (.inl company))
  obtain ⟨marked, first⟩ := first
  obtain ⟨tags, there, _, stays⟩ := tags_tag first tagsThere
  have there : (withUser context marked).lookup "tags" = some tags := by
    rw [lookup_withUser (by decide), there]
  have pruned : ∃ items, prune b (extraOf event) = .dict items := by
    rw [extra]
    exact ⟨_, rfl⟩
  obtain ⟨items, pruned⟩ := pruned
  obtain ⟨before', same, names⟩ := prune_dict pruned
  unfold beforeSend
  dsimp only
  rw [extraOf_withRequest, first, ok_bind, pruned]
  refine (tag_ok_iff there).mpr (fun request => stays (dict (.inr ?_)))
  rw [Option.isSome_map, names "request_id" (isSensitive_part (by decide)), filter_truthy] at request
  unfold requestIdOf
  rw [same]
  exact request

/-! ## What stays -/

theorem reach_extraOf {path : List Step} (inside : path ≠ []) :
    (extraOf event).reach path = (event.lookup "extra").bind (fun extra => extra.reach path) := by
  obtain ⟨step, path, rfl⟩ := List.exists_cons_of_ne_nil inside
  unfold extraOf
  split
  · rename_i extra there
    rw [there]
    split
    · rfl
    · rename_i falsy
      cases extra with
      | dict items =>
          cases items with
          | nil => rfl
          | cons item items => exact absurd rfl falsy
      | list items =>
          cases items with
          | nil => cases step <;> rfl
          | cons item items => exact absurd rfl falsy
      | _ => cases step <;> rfl
  · rename_i missing
    rw [missing]
    cases step <;> rfl

variable (b) in
def pruneHeaders : Payload -> Payload
  | .dict headers => prune b (.dict headers)
  | headers => headers

theorem lookup_scrub (request : List (String × Payload)) (name : String) :
    (scrub b request).lookup name =
      if name ∈ ["data", "cookies", "env", "query_string"] then none
      else if name = "headers" then
        (request.lookup "headers").map (pruneHeaders b)
      else request.lookup name := by
  have popped : ∀ other, (pop "env" (pop "cookies" (pop "data" request))).lookup other =
      if other ∈ ["data", "cookies", "env"] then none else request.lookup other := by
    intro other
    rw [Payload.lookup_pop, Payload.lookup_pop, Payload.lookup_pop]
    simp only [List.mem_cons, List.not_mem_nil, or_false]
    by_cases env : other = "env"
    · rw [if_pos env, if_pos (.inr (.inr env))]
    · by_cases cookies : other = "cookies"
      · rw [if_neg env, if_pos cookies, if_pos (.inr (.inl cookies))]
      · by_cases data : other = "data"
        · rw [if_neg env, if_neg cookies, if_pos data, if_pos (.inl data)]
        · rw [if_neg env, if_neg cookies, if_neg data,
            if_neg (fun gone => gone.elim data (fun gone => gone.elim cookies env))]
  unfold scrub
  dsimp only
  rw [Payload.lookup_pop]
  by_cases query : name = "query_string"
  · rw [if_pos query, query, if_pos (by decide)]
  · have same : name ∈ ["data", "cookies", "env", "query_string"] ↔ name ∈ ["data", "cookies", "env"] := by
      simp only [List.mem_cons, List.not_mem_nil, or_false, query]
    rw [if_neg query, popped "headers", if_neg (by decide)]
    simp only [same]
    by_cases headers : name = "headers"
    · subst headers
      rw [if_neg (by decide), if_pos rfl]
      split
      · rename_i headers there
        rw [Payload.lookup_assign, if_pos rfl, there]
        rfl
      · rename_i other
        rw [popped, if_neg (by decide)]
        cases there : request.lookup "headers" with
        | none => rfl
        | some headers =>
            cases headers with
            | dict headers => exact absurd there (other headers)
            | _ => rfl
    · rw [if_neg headers]
      split
      · rw [Payload.lookup_assign, if_neg headers, popped]
      · rw [popped]

/-! ## Paths into the report -/

/-- The event's part is sent as it is. -/
theorem withheld_other {part : String} (other : part ∉ ["request", "extra", "tags", "user"]) (path : List Step) :
    withheld b context event (.key part :: path) = false := by
  simp only [List.mem_cons, List.not_mem_nil, or_false, not_or] at other
  unfold withheld
  split
  all_goals rename_i same
  all_goals simp_all

theorem withheld_request {name : String} (other : name ≠ "headers") (path : List Step) :
    withheld b context event (.key "request" :: .key name :: path) =
      decide (name ∈ ["data", "cookies", "env", "query_string"]) := by
  unfold withheld
  split
  all_goals simp_all

theorem ends_cons {step : Step} {path : List Step} (inside : path ≠ []) : ends b (step :: path) = ends b path := by
  obtain ⟨next, path, rfl⟩ := List.exists_cons_of_ne_nil inside
  cases step <;> rfl

/-- A sensitive key below the pruned levels keeps its value. -/
theorem reach_prune_deep {path : List Step} (sensitive : ends b path = true) (free : covered b 7 path = false)
    (value : Payload) : (prune b value).reach path = value.reach path := by
  have deep : 7 - path.length = 0 := by
    rw [Nat.sub_eq_zero_iff_le]
    by_contra short
    rw [covered_of_ends sensitive (by omega)] at free
    cases free
  unfold prune
  rw [reach_pruneLevels free, deep]
  exact Option.map_id'

/-- The report has the mark in a place, or what the event has there and nothing withholds. -/
structure Lets (sent event : Option Payload) (hidden : Bool) : Prop where
  through : ∀ found, sent = some found -> found = redacted ∨ event = some found ∧ hidden = false
  stays : ∀ found, event = some found -> hidden = false -> sent = some found

theorem lets_same (found : Option Payload) : Lets found found false :=
  ⟨fun _ there => .inr ⟨there, rfl⟩, fun _ there _ => there⟩

theorem lets_none (found : Option Payload) : Lets none found true :=
  ⟨fun _ impossible => (nomatch impossible), fun _ _ impossible => (nomatch impossible)⟩

theorem lets_nothing (hidden : Bool) : Lets none none hidden :=
  ⟨fun _ impossible => (nomatch impossible), fun _ impossible => (nomatch impossible)⟩

theorem lets_prune {path : List Step} (sensitive : ends b path = true) (value : Payload) :
    Lets ((prune b value).reach path) (value.reach path) (covered b 7 path) := by
  cases hidden : covered b 7 path with
  | true => exact ⟨fun _ reached => .inl (redacted_of_covered hidden reached), fun _ _ impossible => (nomatch impossible)⟩
  | false =>
      rw [reach_prune_deep sensitive hidden]
      exact lets_same _

theorem ne_nil_of_part {part : String} {path : List Step} (sensitive : ends b (.key part :: path) = true)
    (plain : isSensitive b part = false) : path ≠ [] := by
  rintro rfl
  have here : isSensitive b part = true := sensitive
  rw [plain] at here
  cases here

theorem lets_headers {path : List Step} (sensitive : ends b (.key "headers" :: path) = true) (headers : Payload) :
    Lets ((pruneHeaders b headers).reach path) (headers.reach path)
      (withheld b context event (.key "request" :: .key "headers" :: path)) := by
  have inside := ne_nil_of_part sensitive (isSensitive_part (by decide))
  rw [ends_cons inside] at sensitive
  obtain ⟨step, path, rfl⟩ := List.exists_cons_of_ne_nil inside
  cases headers with
  | dict headers =>
      cases step with
      | index i => exact lets_nothing _
      | key name => exact lets_prune sensitive _
  | list headers =>
      cases step with
      | index i => exact lets_same _
      | key name => exact lets_nothing _
  | _ =>
      cases step <;> exact lets_nothing _

theorem lets_scrub {path : List Step} (sensitive : ends b path = true) (request : List (String × Payload)) :
    Lets ((Payload.dict (scrub b request)).reach path) ((Payload.dict request).reach path)
      (withheld b context event (.key "request" :: path)) := by
  cases path with
  | nil => cases sensitive
  | cons step path =>
      cases step with
      | index i => exact lets_nothing _
      | key name =>
          rw [Payload.reach_dict, Payload.reach_dict, lookup_scrub]
          by_cases headers : name = "headers"
          · subst headers
            rw [if_neg (by decide), if_pos rfl]
            cases request.lookup "headers" with
            | none => exact lets_nothing _
            | some headers => exact lets_headers sensitive headers
          · rw [withheld_request headers]
            by_cases gone : name ∈ ["data", "cookies", "env", "query_string"]
            · rw [if_pos gone, decide_eq_true gone]
              exact lets_none _
            · rw [if_neg gone, decide_eq_false gone, if_neg headers]
              exact lets_same _

theorem withRequest_dict {request : List (String × Payload)} (dict : event.lookup "request" = some (.dict request)) :
    (withRequest b event).lookup "request" = some (.dict (scrub b request)) := by
  unfold withRequest
  split
  · rename_i same there
    rw [dict] at there
    cases there
    rw [Payload.lookup_assign, if_pos rfl]
  · rename_i other
    exact absurd dict (other request)

theorem withRequest_other (other : ∀ request, event.lookup "request" ≠ some (.dict request)) :
    withRequest b event = event := by
  unfold withRequest
  split
  · rename_i request dict
    exact absurd dict (other request)
  · rfl

theorem lets_request {path : List Step} (sensitive : ends b (.key "request" :: path) = true) :
    Lets (((withRequest b event).lookup "request").bind (fun part => part.reach path))
      ((event.lookup "request").bind (fun part => part.reach path))
      (withheld b context event (.key "request" :: path)) := by
  have inside := ne_nil_of_part sensitive (isSensitive_part (by decide))
  rw [ends_cons inside] at sensitive
  by_cases dict : ∃ request, event.lookup "request" = some (.dict request)
  · obtain ⟨request, dict⟩ := dict
    rw [withRequest_dict dict, dict]
    exact lets_scrub sensitive request
  · rw [withRequest_other (fun request here => dict ⟨request, here⟩)]
    obtain ⟨step, path, rfl⟩ := List.exists_cons_of_ne_nil inside
    cases step with
    | index i => exact lets_same _
    | key name =>
        have nothing : (event.lookup "request").bind (fun part => part.reach (.key name :: path)) = none := by
          cases there : event.lookup "request" with
          | none => rfl
          | some part =>
              cases part with
              | dict request => exact absurd ⟨request, there⟩ dict
              | _ => rfl
        rw [nothing]
        exact lets_nothing _

/-- The report on a path to a sensitive key. -/
theorem lets_report (report : Report b context event sent) {path : List Step} (sensitive : ends b path = true) :
    Lets ((Payload.dict sent).reach path) ((Payload.dict event).reach path) (withheld b context event path) := by
  cases path with
  | nil => cases sensitive
  | cons step path =>
      cases step with
      | index i => exact lets_nothing _
      | key part =>
          rw [Payload.reach_dict, Payload.reach_dict]
          by_cases own : part ∈ ["request", "extra", "tags", "user"]
          · simp only [List.mem_cons, List.not_mem_nil, or_false] at own
            rcases own with rfl | rfl | rfl | rfl
            · rw [report.request]
              exact lets_request sensitive
            · have inside := ne_nil_of_part sensitive (isSensitive_part (by decide))
              rw [ends_cons inside] at sensitive
              rw [report.extra, Option.bind_some, ← reach_extraOf inside]
              exact lets_prune sensitive _
            · have inside := ne_nil_of_part sensitive (isSensitive_part (by decide))
              obtain ⟨tags, there, keeps⟩ := report.tags
              have before : (event.lookup "tags").bind (fun tags => tags.reach path) =
                  ((event.lookup "tags").getD (.dict [])).reach path := by
                obtain ⟨step, path, rfl⟩ := List.exists_cons_of_ne_nil inside
                cases event.lookup "tags" with
                | none => cases step <;> rfl
                | some tags => rfl
              rw [there, Option.bind_some, before]
              obtain ⟨step, path, rfl⟩ := List.exists_cons_of_ne_nil inside
              rw [ends_cons inside] at sensitive
              cases step with
              | index i =>
                  rw [keeps.index]
                  exact lets_same _
              | key name =>
                  have hidden : withheld b context event (.key "tags" :: .key name :: path) = isTagged context event name :=
                    rfl
                  rw [hidden]
                  cases tagged : isTagged context event name with
                  | false =>
                      rw [keeps.kept name path tagged]
                      exact lets_same _
                  | true =>
                      have plain : isSensitive b name = false := by
                        unfold isTagged at tagged
                        simp only [Bool.or_eq_true, Bool.and_eq_true, decide_eq_true_eq] at tagged
                        rcases tagged with ⟨rfl, _⟩ | ⟨rfl, _⟩
                        · exact isSensitive_part (by decide)
                        · exact isSensitive_part (by decide)
                      refine ⟨fun found reached => ?_, fun _ _ impossible => (nomatch impossible)⟩
                      exact absurd (keeps.gone name path found tagged reached) (ne_nil_of_part sensitive plain)
            · have inside := ne_nil_of_part sensitive (isSensitive_part (by decide))
              rw [report.user]
              refine ⟨fun found reached => ?_, fun _ _ impossible => (nomatch impossible)⟩
              rw [ends_cons inside] at sensitive
              cases known : context.userId with
              | none =>
                  rw [known] at reached
                  cases reached
              | some id =>
                  rw [known, Option.map_some, Option.bind_some] at reached
                  obtain ⟨step, path, rfl⟩ := List.exists_cons_of_ne_nil inside
                  cases step with
                  | index i => cases reached
                  | key name =>
                      rw [Payload.reach_dict, List.lookup_cons, List.lookup_nil] at reached
                      cases same : name == "id" with
                      | false =>
                          rw [same] at reached
                          cases reached
                      | true =>
                          rw [same] at reached
                          have empty := (Payload.eq_nil_of_reach_text reached).1
                          have plain : isSensitive b name = false := by
                            rw [eq_of_beq same]
                            exact isSensitive_part (by decide)
                          exact absurd empty (ne_nil_of_part sensitive plain)
          · rw [report.other part own, withheld_other own]
            exact lets_same _

/-! ## The law of redaction -/

variable (b context event)

/-- No sensitive key is on the path. -/
def Plain (path : List Step) : Prop := ∀ name, .key name ∈ path -> isSensitive b name = false

/-- The pruning puts the mark for the values under sensitive keys, and for nothing else. -/
structure PrunesExactly (value : Payload) : Prop where
  replaced : ∀ path name, Plain b path -> isSensitive b name = true ->
    (prune b value).reach (path ++ [.key name]) = (value.reach (path ++ [.key name])).map (fun _ => redacted)
  kept : ∀ path, Plain b path -> ((prune b value).reach path).map Payload.node = (value.reach path).map Payload.node

/-- The sensitive keys lie in six others at most. -/
def Shallow (value : Payload) : Prop :=
  ∀ path name found, Plain b path -> isSensitive b name = true -> value.reach (path ++ [.key name]) = some found ->
    path.length ≤ 6 ∨ found = redacted

/-- Under the sensitive keys of a report there is the mark. -/
def LetsNothingThrough : Prop :=
  ∀ sent, beforeSend b context event = .ok sent -> ∀ path name found, isSensitive b name = true ->
    (Payload.dict sent).reach (path ++ [.key name]) = some found -> found = redacted

/-- What the event has under its sensitive keys is withheld. -/
def Guarded : Prop :=
  ∀ path name found, isSensitive b name = true -> (Payload.dict event).reach (path ++ [.key name]) = some found ->
    found = redacted ∨ withheld b context event (path ++ [.key name]) = true

variable {b context event}

theorem covered_append_of_plain {path : List Step} (plain : Plain b path) (left : Nat) (rest : List Step) :
    covered b left (path ++ rest) = covered b (left - path.length) rest := by
  induction path generalizing left with
  | nil => rfl
  | cons step path ih =>
      have inner : Plain b path := fun name mem => plain name (List.mem_cons_of_mem _ mem)
      cases left with
      | zero =>
          rw [Nat.zero_sub]
          rfl
      | succ left =>
          rw [List.length_cons, Nat.add_sub_add_right, ← ih inner left, List.cons_append]
          cases step with
          | index i => rfl
          | key name =>
              have clear : isSensitive b name = false := plain name List.mem_cons_self
              have split : covered b (left + 1) (.key name :: (path ++ rest)) =
                  (isSensitive b name || covered b left (path ++ rest)) := rfl
              rw [split, clear, Bool.false_or]

theorem covered_of_plain {path : List Step} (plain : Plain b path) (left : Nat) : covered b left path = false := by
  have whole := covered_append_of_plain plain left []
  rw [List.append_nil] at whole
  rw [whole]
  cases left - path.length <;> rfl

theorem prunesExactly_iff (value : Payload) : PrunesExactly b value ↔ Shallow b value := by
  constructor
  · intro exactly path name found plain sensitive reached
    by_cases short : path.length ≤ 6
    · exact .inl short
    · have none_left : 7 - path.length = 0 := by omega
      have free : covered b 7 (path ++ [.key name]) = false := by
        rw [covered_append_of_plain plain, none_left]
        rfl
      have marked := exactly.replaced path name plain sensitive
      rw [reach_prune_deep ((ends_append path name).trans sensitive) free, reached] at marked
      exact .inr (Option.some.inj marked)
  · intro shallow
    refine ⟨?_, ?_⟩
    · intro path name plain sensitive
      by_cases short : path.length ≤ 6
      · obtain ⟨left, more⟩ : ∃ left, 7 - path.length = left + 1 := ⟨6 - path.length, by omega⟩
        have inner : (prune b value).reach path = (value.reach path).map (pruneLevels b (left + 1)) := by
          rw [← more]
          exact reach_pruneLevels (covered_of_plain plain 7) value
        rw [Payload.reach_append, Payload.reach_append, inner]
        cases value.reach path with
        | none => rfl
        | some found =>
            rw [Option.map_some, Option.bind_some, Option.bind_some]
            cases found with
            | dict items =>
                unfold pruneLevels
                rw [Payload.reach_dict, Payload.reach_dict, lookup_pruned, sensitive]
                cases items.lookup name with
                | none => rfl
                | some found =>
                    rw [Option.map_some, Option.bind_some, Option.bind_some, Payload.reach_nil, Payload.reach_nil]
                    rfl
            | _ => rfl
      · have none_left : 7 - path.length = 0 := by omega
        have free : covered b 7 (path ++ [.key name]) = false := by
          rw [covered_append_of_plain plain, none_left]
          rfl
        rw [reach_prune_deep ((ends_append path name).trans sensitive) free]
        cases reached : value.reach (path ++ [.key name]) with
        | none => rfl
        | some found =>
            rcases shallow path name found plain sensitive reached with near | marked
            · exact absurd near short
            · rw [marked]
              rfl
    · intro path plain
      have inner : (prune b value).reach path = (value.reach path).map (pruneLevels b (7 - path.length)) :=
        reach_pruneLevels (covered_of_plain plain 7) value
      rw [inner, Option.map_map]
      congr 1
      funext found
      exact node_pruneLevels _ found

theorem letsNothingThrough_iff (context : Context) (event : List (String × Payload)) :
    LetsNothingThrough b context event ↔ (Sendable context event -> Guarded b context event) := by
  constructor
  · intro nothing sendable path name found sensitive reached
    obtain ⟨sent, ok⟩ := ok_of_sendable (b := b) sendable
    have lets := lets_report (report_of_ok ok) ((ends_append path name).trans sensitive)
    cases hidden : withheld b context event (path ++ [.key name]) with
    | true => exact .inr rfl
    | false => exact .inl (nothing sent ok path name found sensitive (lets.stays found reached hidden))
  · intro guarded sent ok path name found sensitive reached
    have report := report_of_ok ok
    have lets := lets_report report ((ends_append path name).trans sensitive)
    rcases lets.through found reached with marked | ⟨there, shown⟩
    · exact marked
    · rcases guarded report.sendable path name found sensitive there with marked | hidden
      · exact marked
      · rw [shown] at hidden
        cases hidden

/-- Redaction reaches the request's headers and the extras, six levels deep. -/
theorem redaction_iff (b : Builtins) :
    (∀ value, PrunesExactly b value ↔ Shallow b value) ∧
      ∀ context event, LetsNothingThrough b context event ↔ (Sendable context event -> Guarded b context event) :=
  ⟨prunesExactly_iff, letsNothingThrough_iff⟩

def builtins : Builtins where
  lower := String.toLower
  str := fun _ => ""
  ascii := fun _ _ => rfl

/-- A password among the variables of a frame, and one in seven dictionaries. -/
def signIn : List (String × Payload) :=
  [("exception", .dict [("values", .list [.dict [("vars", .dict [("Password", .text "hunter2")])]])]),
    ("extra", .dict [("a", .dict [("b", .dict [("c", .dict [("d", .dict [("e", .dict [("f", .dict [("g", .dict
      [("password", .text "hunter2")])])])])])])])])]

theorem password_let_through :
    ∃ sent, beforeSend builtins ⟨none, none⟩ signIn = .ok sent ∧
      (Payload.dict sent).reach [.key "exception", .key "values", .index 0, .key "vars", .key "Password"] =
        some (.text "hunter2") ∧
      (Payload.dict sent).reach [.key "extra", .key "a", .key "b", .key "c", .key "d", .key "e", .key "f", .key "g",
        .key "password"] = some (.text "hunter2") ∧
      ¬LetsNothingThrough builtins ⟨none, none⟩ signIn ∧
      ¬PrunesExactly builtins (extraOf signIn) := by
  have sendable : Sendable ⟨none, none⟩ signIn := by
    refine ⟨⟨_, rfl⟩, fun either => ?_⟩
    exact ⟨[], rfl⟩
  obtain ⟨sent, ok⟩ := ok_of_sendable (b := builtins) sendable
  have report := report_of_ok ok
  have inFrame : ends builtins [.key "exception", .key "values", .index 0, .key "vars", .key "Password"] = true := by
    decide +kernel
  have inExtra : ends builtins [.key "extra", .key "a", .key "b", .key "c", .key "d", .key "e", .key "f", .key "g",
      .key "password"] = true := by
    decide +kernel
  have frame := (lets_report report inFrame).stays _ rfl (by decide +kernel)
  have deep := (lets_report report inExtra).stays _ rfl (by decide +kernel)
  have different : Payload.text "hunter2" ≠ redacted := fun same => absurd (Payload.text.inj same) (by decide)
  refine ⟨sent, ok, frame, deep, ?_, ?_⟩
  · intro nothing
    exact different (nothing sent ok [.key "exception", .key "values", .index 0, .key "vars"] "Password" _
      (by decide +kernel) frame)
  · rw [prunesExactly_iff]
    intro shallow
    have plain : Plain builtins [.key "a", .key "b", .key "c", .key "d", .key "e", .key "f", .key "g"] := by
      intro name mem
      simp only [List.mem_cons, Step.key.injEq, List.not_mem_nil, or_false] at mem
      rcases mem with rfl | rfl | rfl | rfl | rfl | rfl | rfl
      all_goals decide +kernel
    rcases shallow _ "password" _ plain (by decide +kernel) rfl with short | marked
    · exact absurd short (by decide)
    · exact different marked

end Observability
end Shiftlush
