import Shiftlush.Transactions.Notes
import Shiftlush.Fleet.Agreements

namespace Shiftlush
namespace Fleet

open Calendar (Date)
open Transactions

/-!
# What a closing request commits

Each statement writes the row it has locked, or one whose key it has drawn, so
the programs of `Agreements` follow the convention of their locks.  What they
rely on between the load and the commit is protected by none of them: what a
request commits is its decision on the row it loaded, made of the rows committed
by then.
-/

/-! ## The convention -/

def Row.kept : Row -> Agreements -> Agreements -> Prop
  | .contract id, v, v' => ∀ contract, v.contracts.get? id = some contract ->
      v'.contracts.get? id = some contract
  | .line id, v, v' => ∀ line, v.lines.get? id = some line -> v'.lines.get? id = some line
  | .elevator id, v, v' => ∀ lift, v.elevators.get? id = some lift ->
      v'.elevators.get? id = some lift
  | .openEntry _, _, _ => True

/-- No row has the key. -/
structure Agreements.Unused (id : Nat) (v : Agreements) : Prop where
  contract : v.contracts.get? id = none
  line : v.lines.get? id = none

structure SameKey (id : Nat) (v v' : Agreements) : Prop where
  contract : v'.contracts.get? id = v.contracts.get? id
  line : v'.lines.get? id = v.lines.get? id

def convention : Convention Agreements Row Loaded where
  inv _ := True
  kept := Row.kept
  keptId := SameKey
  always _ _ := True
  unused := Agreements.Unused
  order _ _ _ _ _ := True
  noted s loaded := s.contracts.get? loaded.1 = some loaded.2
  kept_refl row v := by
    cases row with
    | openEntry elevator => trivial
    | _ => exact fun _ found => found
  always_refl _ := trivial
  unused_kept _ _ _ unused unused' :=
    ⟨unused'.contract.trans unused.contract.symm, unused'.line.trans unused.line.symm⟩

variable {s v : Agreements} {t : Trail Agreements Row Loaded}

/-! ## The writes -/

theorem respects_setContract {id : Nat} {f : Contract -> Contract} :
    convention.Respects t (Agreements.setContract id f) v where
  rows _ _ row kept := by
    cases row with
    | contract id' => exact Rows.update_kept kept
    | _ => exact kept
  ids _ _ _ same := ⟨Rows.update_same same.contract, same.line⟩
  always _ _ := trivial

theorem respects_close {id : Nat} {f : Contract -> Contract} :
    convention.Respects t (Agreements.close id f) v where
  rows _ _ row kept := by
    cases row with
    | contract id' => exact Rows.update_kept kept
    | _ => exact kept
  ids _ _ _ same := ⟨Rows.update_same same.contract, same.line⟩
  always _ _ := trivial

theorem respects_closeLine {id : Nat} {day : Date} :
    convention.Respects t (Agreements.closeLine id day) v where
  rows _ _ row kept := by
    cases row with
    | line id' => exact Rows.update_kept kept
    | _ => exact kept
  ids _ _ _ same := ⟨same.contract, Rows.update_same same.line⟩
  always _ _ := trivial

theorem respects_uncontract {elevator : Nat} :
    convention.Respects t (Agreements.uncontract elevator) v where
  rows _ _ row kept := by
    cases row with
    | elevator id' => exact Rows.update_kept kept
    | _ => exact kept
  ids _ _ _ same := ⟨same.contract, same.line⟩
  always _ _ := trivial

theorem respects_addContract {id : Nat} {contract : Contract} (drawn : id ∈ t.ids) :
    convention.Respects t (Agreements.addContract id contract) v where
  rows _ rely row kept := by
    have same : SameKey id _ _ := rely.ids id drawn
    cases row with
    | contract id' => exact Rows.insert_kept kept same.contract
    | _ => exact kept
  ids _ _ _ same := ⟨Rows.insert_same same.contract, same.line⟩
  always _ _ := trivial

theorem respects_addLine {id : Nat} {line : ContractElevator} (drawn : id ∈ t.ids) :
    convention.Respects t (Agreements.addLine id line) v where
  rows _ rely row kept := by
    have same : SameKey id _ _ := rely.ids id drawn
    cases row with
    | line id' => exact Rows.insert_kept kept same.line
    | _ => exact kept
  ids _ _ _ same := ⟨same.contract, Rows.insert_same same.line⟩
  always _ _ := trivial

/-- A contract that is locked, or that the transaction has made itself. -/
def Owns (t : Trail Agreements Row Loaded) (s : Agreements) (id : Nat) : Prop :=
  t.Locked (.contract id) ∨ s.contracts.get? id = none

theorem confined_setContract {id : Nat} {f : Contract -> Contract} (owns : Owns t s id)
    (confined : convention.Confined t s v) : convention.Confined t s (v.setContract id f) where
  rows row free := by
    have kept := confined.rows row free
    cases row with
    | contract id' =>
        intro contract found
        by_cases here : id' = id
        · subst here
          rcases owns with locked | made
          · exact absurd locked free
          · rw [made] at found
            cases found
        · exact Rows.update_other kept here contract found
    | _ => exact kept
  always := trivial
  ids id' undrawn unused := by
    have free := confined.ids id' undrawn unused
    exact ⟨Rows.update_absent free.contract, free.line⟩

theorem confined_close {id : Nat} {f : Contract -> Contract} (owns : Owns t s id)
    (confined : convention.Confined t s v) : convention.Confined t s (v.close id f) := by
  have saved : convention.Confined t s (v.setContract id f) := confined_setContract owns confined
  refine ⟨?_, trivial, ?_⟩
  · intro row free
    have kept := saved.rows row free
    cases row with
    | _ => exact kept
  · intro id' undrawn unused
    have free := saved.ids id' undrawn unused
    exact ⟨free.contract, free.line⟩

theorem confined_closeLine {id : Nat} {day : Date} (locked : t.Locked (.line id))
    (confined : convention.Confined t s v) : convention.Confined t s (v.closeLine id day) where
  rows row free := by
    have kept := confined.rows row free
    cases row with
    | line id' =>
        refine Rows.update_other kept ?_
        rintro rfl
        exact free locked
    | _ => exact kept
  always := trivial
  ids id' undrawn unused := by
    have free := confined.ids id' undrawn unused
    exact ⟨free.contract, Rows.update_absent free.line⟩

theorem confined_uncontract {elevator : Nat} (locked : t.Locked (.elevator elevator))
    (confined : convention.Confined t s v) : convention.Confined t s (v.uncontract elevator) where
  rows row free := by
    have kept := confined.rows row free
    cases row with
    | elevator id' =>
        refine Rows.update_other kept ?_
        rintro rfl
        exact free locked
    | _ => exact kept
  always := trivial
  ids id' undrawn unused := by
    have free := confined.ids id' undrawn unused
    exact ⟨free.contract, free.line⟩

theorem confined_addContract {id : Nat} {contract : Contract} (drawn : id ∈ t.ids)
    (confined : convention.Confined t s v) : convention.Confined t s (v.addContract id contract) where
  rows row free := by
    have kept := confined.rows row free
    cases row with
    | contract id' => exact fun contract found => Rows.get?_insert_of_some (kept contract found)
    | _ => exact kept
  always := trivial
  ids id' undrawn unused := by
    have free := confined.ids id' undrawn unused
    have other : id ≠ id' := by
      rintro rfl
      exact undrawn drawn
    exact ⟨(Rows.get?_insert_of_ne other).trans free.contract, free.line⟩

theorem confined_addLine {id : Nat} {line : ContractElevator} (drawn : id ∈ t.ids)
    (confined : convention.Confined t s v) : convention.Confined t s (v.addLine id line) where
  rows row free := by
    have kept := confined.rows row free
    cases row with
    | line id' => exact fun line found => Rows.get?_insert_of_some (kept line found)
    | _ => exact kept
  always := trivial
  ids id' undrawn unused := by
    have free := confined.ids id' undrawn unused
    have other : id ≠ id' := by
      rintro rfl
      exact undrawn drawn
    exact ⟨free.contract, (Rows.get?_insert_of_ne other).trans free.line⟩

/-! ## The programs -/

/-- Statements that leave contracts and closings. -/
structure Leaves (s : Agreements) (t t' : Trail Agreements Row Loaded) : Prop where
  contracts : (t'.writes s).contracts = (t.writes s).contracts
  closings : (t'.writes s).closings = (t.writes s).closings
  seen : t'.seen = t.seen

namespace Leaves

variable {t' t'' : Trail Agreements Row Loaded}

theorem refl : Leaves s t t := ⟨rfl, rfl, rfl⟩

theorem trans (first : Leaves s t t') (second : Leaves s t' t'') : Leaves s t t'' :=
  ⟨second.contracts.trans first.contracts, second.closings.trans first.closings,
    second.seen.trans first.seen⟩

end Leaves

section Programs

variable {post : Agreements -> Unit -> Trail Agreements Row Loaded -> Prop}

theorem sound_saveClosedLine {id : Nat} {day : Date} (after : ∀ t', Leaves s t t' -> post s () t') :
    Sound convention (saveClosedLine id day) s t post := by
  unfold saveClosedLine
  simp only [Prog.bind_eq, sound_bind, sound_lock, sound_write]
  exact ⟨trivial, respects_closeLine, confined_closeLine List.mem_cons_self, after _ ⟨rfl, rfl, rfl⟩⟩

theorem sound_saveUncontracted {elevator : Nat} (after : ∀ t', Leaves s t t' -> post s () t') :
    Sound convention (saveUncontracted elevator) s t post := by
  unfold saveUncontracted
  simp only [Prog.bind_eq, sound_bind, sound_lock, sound_write]
  exact ⟨trivial, respects_uncontract, confined_uncontract List.mem_cons_self, after _ ⟨rfl, rfl, rfl⟩⟩

theorem sound_createLine {successor : Nat} {startDate : Date} {copyTerms : Bool}
    {line : ContractElevator} (after : ∀ t', Leaves s t t' -> post s () t') :
    Sound convention (createLine successor startDate copyTerms line) s t post := by
  unfold createLine
  simp only [Prog.bind_eq, sound_bind, sound_fresh, sound_lock, sound_peek]
  intro key _ _
  refine ⟨trivial, ?_⟩
  intro held
  split
  · exact sound_raise
  · rw [sound_write]
    exact ⟨respects_addLine List.mem_cons_self, confined_addLine List.mem_cons_self,
      after _ ⟨rfl, rfl, rfl⟩⟩

/-- A loop over lines that leaves the contracts. -/
theorem sound_eachLine {lines : Rows ContractElevator} {body : Nat × ContractElevator -> ContractProg Unit}
    (turn : ∀ r t post, (∀ t', Leaves s t t' -> post s () t') -> Sound convention (body r) s t post)
    {post : Agreements -> List Unit -> Trail Agreements Row Loaded -> Prop}
    (after : ∀ answers t', Leaves s t t' -> post s answers t') :
    Sound convention (forEach lines body) s t post := by
  refine Sound.forEach (fun _ _ s' t' => s' = s ∧ Leaves s t t') ?_ ?_ ?_
  · exact ⟨rfl, .refl⟩
  · rintro done r rest answers s' t' _ ⟨same, leaves⟩
    rw [same]
    apply turn
    intro t'' more
    exact ⟨rfl, leaves.trans more⟩
  · rintro answers s' t' ⟨same, leaves⟩
    rw [same]
    exact after answers t' leaves

theorem sound_letGo {id : Nat} {day : Date} (after : ∀ t', Leaves s t t' -> post s () t') :
    Sound convention (letGo id day) s t post := by
  unfold letGo
  simp only [Prog.bind_eq, Prog.pure_eq, sound_bind, sound_peek, sound_done]
  intro lines
  apply sound_eachLine
  · intro r t post after
    rw [sound_bind]
    apply sound_saveClosedLine
    intro t' first
    apply sound_saveUncontracted
    intro t'' second
    exact after t'' (first.trans second)
  · intro _ t' leaves
    exact after t' leaves

theorem sound_passOn {id successor : Nat} {startDate : Date} {carryElevators copyTerms : Bool}
    (after : ∀ t', Leaves s t t' -> post s () t') :
    Sound convention (passOn id successor startDate carryElevators copyTerms) s t post := by
  unfold passOn
  simp only [Prog.bind_eq, Prog.pure_eq, sound_bind, sound_peek, sound_done]
  intro lines
  apply sound_eachLine
  · intro r t post after
    rw [sound_bind]
    apply sound_saveClosedLine
    intro t' first
    split
    · apply sound_createLine
      intro t'' second
      exact after t'' (first.trans second)
    · apply sound_saveUncontracted
      intro t'' second
      exact after t'' (first.trans second)
  · intro _ t' leaves
    exact after t' leaves

theorem sound_loadContract {id : Nat}
    {post : Agreements -> Contract -> Trail Agreements Row Loaded -> Prop}
    (after : ∀ contract, post s contract ((Trail.start 0).see [(id, contract)])) :
    Sound convention (loadContract id) s (.start 0) post := by
  unfold loadContract
  simp only [Prog.bind_eq, sound_bind, sound_peekLogged]
  constructor
  · intro note mem
    rw [Trail.start_writes] at mem
    cases found : s.contracts.get? id with
    | none =>
        rw [found] at mem
        cases mem
    | some contract =>
        rw [found] at mem
        rw [List.mem_singleton.mp mem]
        exact found
  · intro found
    cases found with
    | none => exact sound_raise
    | some contract => exact after contract

end Programs

/-! ## What each request commits -/

/-- The successor's row beside the renewed one. -/
structure Renews (id successor : Nat) (s s' : Agreements) : Prop where
  fresh : s.contracts.get? successor = none
  contracts : ∃ row, row.previousContract = some id ∧ row.status = .draft ∧
    s'.contracts = (s.contracts.insert successor row).update id Contract.renewed
  closings : s'.closings = id :: s.closings

inductive Change : Request -> Agreements -> Agreements -> List Loaded -> Prop where
  | terminates {id terminatedAt reason contract s s'} :
      s'.contracts = s.contracts.update id (Contract.terminated terminatedAt reason) ->
      s'.closings = id :: s.closings ->
      Change (.terminate id terminatedAt reason) s s' [(id, contract)]
  | renews {id startDate endDate carryElevators copyTerms contract successor s s'} :
      Renews id successor s s' ->
      Change (.renew id startDate endDate carryElevators copyTerms) s s' [(id, contract)]
  | autoRenews {id today contract successor s s' s''} : contract.isOverdue today = true ->
      Renews id successor s s' -> s''.closings = s'.closings ->
      (s''.contracts = s'.contracts ∨
        s''.contracts = s'.contracts.update successor Contract.activated) ->
      Change (.expire id today) s s'' [(id, contract)]
  | expires {id today contract s s'} : contract.isOverdue today = true ->
      s'.contracts = s.contracts.update id Contract.expired ->
      s'.closings = s.closings -> Change (.expire id today) s s' [(id, contract)]
  | rests {id today contract s s'} : contract.isOverdue today = false ->
      s'.contracts = s.contracts -> s'.closings = s.closings ->
      Change (.expire id today) s s' [(id, contract)]
  | edits {id changes contract s s'} :
      checkContract changes.status (changes.apply contract) = .ok () ->
      s'.contracts = s.contracts.update id (fun _ => changes.apply contract) ->
      s'.closings = s.closings -> Change (.edit id changes) s s' [(id, contract)]

theorem sound_renewLoaded {id : Nat} {contract : Contract} {startDate endDate : Date}
    {carryElevators copyTerms : Bool} (clean : t.writes s = s)
    {post : Agreements -> Nat -> Trail Agreements Row Loaded -> Prop}
    (after : ∀ successor t', Renews id successor s (t'.writes s) -> t'.seen = t.seen ->
      t'.Locked (.contract id) -> post s successor t') :
    Sound convention (renewLoaded id contract startDate endDate carryElevators copyTerms) s t post := by
  unfold renewLoaded
  split
  · exact sound_raise
  · split
    · exact sound_raise
    · simp only [Prog.bind_eq, Prog.pure_eq, sound_bind, sound_fresh, sound_write]
      intro successor unused _
      refine ⟨respects_addContract List.mem_cons_self, confined_addContract List.mem_cons_self, ?_⟩
      apply sound_passOn
      intro t' leaves
      simp only [sound_lock, sound_done]
      refine ⟨trivial, respects_close, confined_close (Or.inl List.mem_cons_self), ?_⟩
      have before : (t.writes s).contracts = s.contracts := by rw [clean]
      apply after
      · refine ⟨unused.contract, ⟨contract.successor id startDate endDate copyTerms, rfl, rfl, ?_⟩, ?_⟩
        · change (t'.writes s).contracts.update id Contract.renewed = _
          rw [leaves.contracts]
          change ((t.writes s).contracts.insert successor _).update id _ = _
          rw [before]
        · change id :: (t'.writes s).closings = _
          rw [leaves.closings]
          change id :: (t.writes s).closings = _
          rw [clean]
      · exact leaves.seen
      · exact List.mem_cons_self

theorem sound_serve (q : Request) : Sound convention (serve q) s (.start 0)
    (fun s' _ t => Change q s' (t.writes s') t.seen) := by
  cases q with
  | terminate id terminatedAt reason =>
      unfold serve terminate
      simp only [Prog.bind_eq, sound_bind]
      apply sound_loadContract
      intro contract
      split
      · exact sound_raise
      · split
        · exact sound_raise
        · rw [sound_bind]
          apply sound_letGo
          intro t' leaves
          simp only [sound_bind, sound_lock, sound_write]
          refine ⟨trivial, respects_close, confined_close (Or.inl List.mem_cons_self), ?_⟩
          have seen : t'.seen = [(id, contract)] := leaves.seen
          rw [Trail.write_seen, Trail.hold_seen, seen]
          refine .terminates ?_ ?_
          · change (t'.writes s).contracts.update id _ = _
            rw [leaves.contracts]
            rfl
          · change id :: (t'.writes s).closings = _
            rw [leaves.closings]
            rfl
  | renew id startDate endDate carryElevators copyTerms =>
      unfold serve renew
      simp only [Prog.bind_eq, Prog.pure_eq, sound_bind, sound_done]
      apply sound_loadContract
      intro contract
      apply sound_renewLoaded rfl
      intro successor t' renews seen _
      rw [seen]
      exact .renews renews
  | expire id today =>
      unfold serve expire
      simp only [Prog.bind_eq, Prog.pure_eq, sound_bind]
      apply sound_loadContract
      intro contract
      by_cases overdue : contract.isOverdue today = true
      · rw [if_pos overdue]
        split
        · rw [sound_bind]
          apply sound_renewLoaded rfl
          intro successor t' renews seen _
          split
          · rw [sound_done, seen]
            exact .autoRenews overdue renews rfl (Or.inl rfl)
          · rw [sound_write]
            refine ⟨respects_setContract, confined_setContract (Or.inr renews.fresh), ?_⟩
            rw [Trail.write_seen, seen]
            exact .autoRenews overdue renews rfl (Or.inr rfl)
        · rw [sound_bind]
          apply sound_letGo
          intro t' leaves
          simp only [sound_bind, sound_lock, sound_write]
          refine ⟨trivial, respects_setContract, confined_setContract (Or.inl List.mem_cons_self), ?_⟩
          have seen : t'.seen = [(id, contract)] := leaves.seen
          rw [Trail.write_seen, Trail.hold_seen, seen]
          refine .expires overdue ?_ leaves.closings
          change (t'.writes s).contracts.update id _ = _
          rw [leaves.contracts]
          rfl
      · rw [if_neg overdue]
        exact .rests (Bool.eq_false_iff.mpr overdue) rfl rfl
  | edit id changes =>
      unfold serve editContract
      simp only [Prog.bind_eq, sound_bind]
      apply sound_loadContract
      intro contract
      split
      · exact sound_raise
      · rename_i checked
        simp only [sound_bind, sound_lock, sound_write]
        refine ⟨trivial, respects_setContract, confined_setContract (Or.inl List.mem_cons_self), ?_⟩
        exact .edits checked rfl rfl

theorem disciplined : Disciplined convention serve Change where
  sound q _ _ := sound_serve q
  inv _ _ _ _ _ _ := trivial

end Fleet
end Shiftlush
