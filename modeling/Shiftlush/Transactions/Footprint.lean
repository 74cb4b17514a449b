import Shiftlush.Transactions.Atomicity
import Shiftlush.Transactions.Anytime

namespace Shiftlush
namespace Transactions

/-!
# What a transaction leaves behind

`Sound` asks of a program that it follow a convention.  `Ends` only asks what it
ends with, alone on the rows it starts from, and can be proved of the same
programs later, for a law the convention was not written for: the sessions of a
disciplined system commit nothing else.  Most programs write only updates of
one kind, and for those `Writes` is read off the statements.
-/

variable {S R N E Q A : Type} {α β : Type}

/-- `post` holds of whatever `p`, continued after `t` on the committed rows `s`, ends with. -/
def Ends (P : Convention S R N) :
    Prog S R N E α -> S -> Trail S R N -> (S -> α -> Trail S R N -> Prop) -> Prop
  | .done answer, s, t, post => post s answer t
  | .raise _, _, _, _ => True
  | .rollback next, _, t, post => ∀ s, P.inv s -> Ends P next s (.start (t.retries + 1)) post
  | .lock mode row next, s, t, post => Ends P next s (t.hold mode row) post
  | .fetch query next missing, s, t, post =>
      (∀ b, query (t.writes s) = some b -> Ends P (next b) s t post) ∧ Ends P missing s t post
  | .peek _ log next, s, t, post => ∀ b, Ends P (next b) s (t.see (log b)) post
  | .fresh next, s, t, post => ∀ id, P.unused id s -> Ends P (next id) s (t.draw id) post
  | .write f next, s, t, post => Ends P next s (t.write f) post

variable {P : Convention S R N} {s : S} {t : Trail S R N}

theorem Ends.bind {p : Prog S R N E α} {f : α -> Prog S R N E β}
    {mid : S -> α -> Trail S R N -> Prop} {post : S -> β -> Trail S R N -> Prop}
    (first : Ends P p s t mid) (second : ∀ s a t, mid s a t -> Ends P (f a) s t post) :
    Ends P (p >>= f) s t post := by
  change Ends P (p.bind f) s t post
  induction p generalizing s t with
  | done answer => exact second s answer t first
  | raise error => trivial
  | rollback next ih => exact fun s' inv => ih (first s' inv)
  | lock mode row next ih => exact ih first
  | fetch query next missing ih ih_missing =>
      exact ⟨fun b found => ih b (first.1 b found), ih_missing first.2⟩
  | peek query log next ih => exact fun b => ih b (first b)
  | fresh next ih => exact fun id unused => ih id (first id unused)
  | write f next ih => exact ih first

/-- A sound program ends with what `Ends` says of it too. -/
theorem Sound.and {p : Prog S R N E α} {post post' : S -> α -> Trail S R N -> Prop}
    (sound : Sound P p s t post) (ends : Ends P p s t post') :
    Sound P p s t (fun s a t => post s a t ∧ post' s a t) := by
  induction p generalizing s t with
  | done answer => exact ⟨sound, ends⟩
  | raise error => trivial
  | rollback next ih => exact fun s' inv => ih (sound s' inv) (ends s' inv)
  | lock mode row next ih => exact ⟨sound.1, ih sound.2 ends⟩
  | fetch query next missing ih ih_missing =>
      refine ⟨?_, ih_missing sound.2 ends.2⟩
      intro b found
      exact ⟨(sound.1 b found).1, ih b (sound.1 b found).2 (ends.1 b found)⟩
  | peek query log next ih => exact ⟨sound.1, fun b => ih b (sound.2 b) (ends b)⟩
  | fresh next ih => exact fun id unused later => ih id (sound id unused later) (ends id unused)
  | write f next ih => exact ⟨sound.1, sound.2.1, ih sound.2.2 ends⟩

/-- What the programs end with holds of every commit. -/
theorem Disciplined.and {serve : Q -> Prog S R N E A} {change : Q -> S -> S -> List N -> Prop}
    (disciplined : Disciplined P serve change) {effect : Q -> S -> S -> Prop}
    (ends : ∀ q s, P.inv s -> Ends P (serve q) s (.start 0) (fun s' _ t => effect q s' (t.writes s'))) :
    Disciplined P serve (fun q s s' seen => change q s s' seen ∧ effect q s s') where
  sound q s inv := (disciplined.sound q s inv).and (ends q s inv)
  inv q s s' seen inv changed := disciplined.inv q s s' seen inv changed.1

/-! ## Writes of one kind -/

/-- Every update the program writes is in `W`; it starts over only if `again`. -/
def Prog.Writes (W : (S -> S) -> Prop) (again : Prop) : Prog S R N E α -> Prop
  | .done _ => True
  | .raise _ => True
  | .rollback next => again ∧ next.Writes W again
  | .lock _ _ next => next.Writes W again
  | .fetch _ next missing => (∀ b, (next b).Writes W again) ∧ missing.Writes W again
  | .peek _ _ next => ∀ b, (next b).Writes W again
  | .fresh next => ∀ id, (next id).Writes W again
  | .write f next => W f ∧ next.Writes W again

namespace Prog.Writes

variable {W : (S -> S) -> Prop} {again : Prop}

theorem bind {p : Prog S R N E α} {f : α -> Prog S R N E β} (first : p.Writes W again)
    (second : ∀ a, (f a).Writes W again) : (p >>= f).Writes W again := by
  change (p.bind f).Writes W again
  induction p with
  | done answer => exact second answer
  | raise error => trivial
  | rollback next ih => exact ⟨first.1, ih first.2⟩
  | lock mode row next ih => exact ih first
  | fetch query next missing ih ih_missing => exact ⟨fun b => ih b (first.1 b), ih_missing first.2⟩
  | peek query log next ih => exact fun b => ih b (first b)
  | fresh next ih => exact fun id => ih id (first id)
  | write f next ih => exact ⟨first.1, ih first.2⟩

theorem forEach {items : List β} {body : β -> Prog S R N E α}
    (each : ∀ item, (body item).Writes W again) : (Transactions.forEach items body).Writes W again := by
  induction items with
  | nil => trivial
  | cons item items ih => exact bind (each item) (fun _ => bind ih (fun _ => trivial))

theorem require {test : Bool} {error : E} :
    (Transactions.require test error : Prog S R N E Unit).Writes W again := by
  cases test with
  | true => trivial
  | false => trivial

/-- What comes after a test may count on it. -/
theorem guard {test : Bool} {error : E} {rest : Unit -> Prog S R N E α}
    (holds : test = true -> (rest ()).Writes W again) :
    (Transactions.require test error >>= rest).Writes W again := by
  cases passes : test with
  | true => exact holds passes
  | false => trivial

theorem lock {mode : LockMode} {row : R} :
    (Transactions.lock mode row : Prog S R N E Unit).Writes W again := trivial

theorem fetch {query : S -> Option β} {error : E} :
    (Transactions.fetch query error : Prog S R N E β).Writes W again := ⟨fun _ => trivial, trivial⟩

theorem find {query : S -> Option β} :
    (Transactions.find query : Prog S R N E (Option β)).Writes W again := ⟨fun _ => trivial, trivial⟩

theorem ensure {test : S -> Bool} {error : E} :
    (Transactions.ensure test error : Prog S R N E Unit).Writes W again := ⟨fun _ => trivial, trivial⟩

theorem observe {query : S -> β} {error : E} :
    (Transactions.observe query error : Prog S R N E β).Writes W again := ⟨fun _ => trivial, trivial⟩

theorem peek {query : S -> β} : (Transactions.peek query : Prog S R N E β).Writes W again :=
  fun _ => trivial

theorem fresh : (Transactions.fresh : Prog S R N E Nat).Writes W again := fun _ => trivial

theorem write {f : S -> S} (kind : W f) :
    (Transactions.write f : Prog S R N E Unit).Writes W again := ⟨kind, trivial⟩

/-- What every such update keeps holds of the writes when the program ends. -/
theorem ends {p : Prog S R N E α} (writes : p.Writes W again) {J : S -> (S -> S) -> Prop}
    (here : J s t.writes) (step : ∀ s g f, W f -> J s g -> J s (fun v => f (g v)))
    (restart : again -> ∀ s, P.inv s -> J s id) : Ends P p s t (fun s' _ t' => J s' t'.writes) := by
  induction p generalizing s t with
  | done answer => exact here
  | raise error => trivial
  | rollback next ih => exact fun s' inv => ih writes.2 (restart writes.1 s' inv)
  | lock mode row next ih => exact ih writes here
  | fetch query next missing ih ih_missing =>
      exact ⟨fun b _ => ih b (writes.1 b) here, ih_missing writes.2 here⟩
  | peek query log next ih => exact fun b => ih b (writes b) here
  | fresh next ih => exact fun id _ => ih id (writes id) here
  | write f next ih => exact ih writes.2 (step s t.writes f writes.1 here)

/-- The same while others commit, for a program that does not start over. -/
theorem anytime {C : Course S} {p : Prog S R N E α} (writes : p.Writes W False) {J : (S -> S) -> Prop}
    (here : J t.writes) (step : ∀ g f, W f -> J g -> J (fun v => f (g v))) :
    Anytime C p s t (fun _ _ t' => J t'.writes) := by
  induction p generalizing s t with
  | done answer => exact fun _ _ _ => here
  | raise error => trivial
  | rollback next ih => exact absurd writes.1 id
  | lock mode row next ih => exact ih writes here
  | fetch query next missing ih ih_missing =>
      exact fun _ _ _ => ⟨fun b _ => ih b (writes.1 b) here, ih_missing writes.2 here⟩
  | peek query log next ih => exact fun _ _ _ => ih _ (writes _) here
  | fresh next ih => exact fun id => ih id (writes id) here
  | write f next ih => exact ih writes.2 (step t.writes f writes.1 here)

/-- A program that writes nothing. -/
theorem reads {C : Course S} {p : Prog S R N E α} (writes : p.Writes (fun _ => False) False) :
    Anytime C p s t (fun _ _ t' => t'.writes = t.writes) :=
  writes.anytime (J := fun g => g = t.writes) rfl (fun _ _ impossible _ => absurd impossible id)

end Prog.Writes

end Transactions
end Shiftlush
