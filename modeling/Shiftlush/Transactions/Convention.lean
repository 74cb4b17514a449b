import Shiftlush.Transactions.Machine

namespace Shiftlush
namespace Transactions

/-!
# What locks protect

`READ COMMITTED` promises nothing about two statements of one transaction.
What a transaction may rely on between a read and its commit is what its locks
keep other sessions from changing, and that is a convention of the program:
nothing in the database says that the applications of an invoice are only
written under the invoice's lock.

`Convention` states it, and `Sound` says that a program follows it: every
`fetch` reads only what the locks held at that moment protect, every write
changes only what they protect, and no write reads what they do not.  The
order locks are taken in, and what a note says, are part of the convention too.
All of it is about one program on one database.  What follows for any number of
interleaved sessions is proved once, in `Atomicity`.
-/

/-- `kept row v v'` says that whoever holds `row` finds in `v'` what it found
in `v`; `keptId` is the same for a primary key it has drawn, and `always` for
what no session changes.  `unused id` says no row carries `id` yet.  `order`
says when a session may ask for a row: what it holds, how often it gave up, the
mode and the row.  `noted` is what a note in the log says of the committed rows. -/
structure Convention (S R N : Type) where
  inv : S -> Prop
  kept : R -> S -> S -> Prop
  keptId : Nat -> S -> S -> Prop
  always : S -> S -> Prop
  unused : Nat -> S -> Prop
  order : S -> List (LockMode × R) -> Nat -> LockMode -> R -> Prop
  noted : S -> N -> Prop
  kept_refl : ∀ row v, kept row v v
  always_refl : ∀ v, always v v
  unused_kept : ∀ id {v w}, unused id v -> unused id w -> keptId id v w

variable {S R N E Q A : Type} {α β : Type}

namespace Convention

variable (P : Convention S R N)

/-- What a session that has done `t` finds unchanged in `v'`, coming from `v`. -/
structure Rely (t : Trail S R N) (v v' : S) : Prop where
  rows : ∀ row, t.Locked row -> P.kept row v v'
  ids : ∀ id ∈ t.ids, P.keptId id v v'
  always : P.always v v'

/-- At `v`, an update reads nothing but what `t` protects: on any view that
agrees with `v` there, it acts alike. -/
structure Respects (t : Trail S R N) (f : S -> S) (v : S) : Prop where
  rows : ∀ v', P.Rely t v v' -> ∀ row, P.kept row v v' -> P.kept row (f v) (f v')
  ids : ∀ v', P.Rely t v v' -> ∀ id, P.keptId id v v' -> P.keptId id (f v) (f v')
  always : ∀ v', P.Rely t v v' -> P.always (f v) (f v')

/-- `v`, made from the committed rows `s`, differs from them in nothing but
what `t` protects.  Another session finds what it relies on unchanged. -/
structure Confined (t : Trail S R N) (s v : S) : Prop where
  rows : ∀ row, ¬ t.Locked row -> P.kept row s v
  always : P.always s v
  ids : ∀ id, id ∉ t.ids -> P.unused id s -> P.unused id v

variable {P}

theorem Rely.weaken {t t' : Trail S R N} {v v' : S} (rely : P.Rely t' v v')
    (held : ∀ row, t.Locked row -> t'.Locked row) (ids : ∀ id ∈ t.ids, id ∈ t'.ids) :
    P.Rely t v v' :=
  ⟨fun row locked => rely.rows row (held row locked), fun id mem => rely.ids id (ids id mem),
    rely.always⟩

theorem Respects.rely {t : Trail S R N} {f : S -> S} {v v' : S} (respects : P.Respects t f v)
    (rely : P.Rely t v v') : P.Rely t (f v) (f v') :=
  ⟨fun row locked => respects.rows v' rely row (rely.rows row locked),
    fun id mem => respects.ids v' rely id (rely.ids id mem), respects.always v' rely⟩

theorem Respects.strengthen {t t' : Trail S R N} {f : S -> S} {v : S}
    (respects : P.Respects t f v) (held : ∀ row, t.Locked row -> t'.Locked row)
    (ids : ∀ id ∈ t.ids, id ∈ t'.ids) : P.Respects t' f v :=
  ⟨fun v' rely => respects.rows v' (rely.weaken held ids),
    fun v' rely => respects.ids v' (rely.weaken held ids),
    fun v' rely => respects.always v' (rely.weaken held ids)⟩

theorem Respects.comp {t : Trail S R N} {f g : S -> S} {v : S} (outer : P.Respects t f (g v))
    (inner : P.Respects t g v) : P.Respects t (fun s => f (g s)) v where
  rows v' rely row kept := outer.rows _ (inner.rely rely) row (inner.rows v' rely row kept)
  ids v' rely id kept := outer.ids _ (inner.rely rely) id (inner.ids v' rely id kept)
  always _ rely := outer.always _ (inner.rely rely)

theorem Respects.id (t : Trail S R N) (v : S) : P.Respects t (fun s => s) v :=
  ⟨fun _ _ _ kept => kept, fun _ _ _ kept => kept, fun _ rely => rely.always⟩

theorem Confined.weaken {t t' : Trail S R N} {s v : S} (confined : P.Confined t s v)
    (held : ∀ row, t.Locked row -> t'.Locked row) (ids : ∀ id ∈ t.ids, id ∈ t'.ids) :
    P.Confined t' s v :=
  ⟨fun row free => confined.rows row (fun locked => free (held row locked)), confined.always,
    fun id free => confined.ids id (fun mem => free (ids id mem))⟩

theorem Confined.refl (t : Trail S R N) (s : S) : P.Confined t s s :=
  ⟨fun row _ => P.kept_refl row s, P.always_refl s, fun _ _ unused => unused⟩

end Convention

/-! ## Programs that follow the convention -/

/-- `p`, continued after `t` on the committed rows `s`, reads and writes under
the protection of its locks, and `post` holds of whatever it ends with.  A
`peek` may answer anything, but the note of a true answer is true; a refused
request ends without obligation, and a new attempt starts on rows that may have
changed. -/
def Sound (P : Convention S R N) :
    Prog S R N E α -> S -> Trail S R N -> (S -> α -> Trail S R N -> Prop) -> Prop
  | .done answer, s, t, post => post s answer t
  | .raise _, _, _, _ => True
  | .rollback next, _, t, post => ∀ s, P.inv s -> Sound P next s (.start (t.retries + 1)) post
  | .lock mode row next, s, t, post =>
      P.order s t.held t.retries mode row ∧ Sound P next s (t.hold mode row) post
  | .fetch query next missing, s, t, post =>
      (∀ b, query (t.writes s) = some b ->
        (∀ v, P.Rely t (t.writes s) v -> query v = some b) ∧ Sound P (next b) s t post) ∧
      Sound P missing s t post
  | .peek query log next, s, t, post =>
      (∀ note ∈ log (query (t.writes s)), P.noted s note) ∧
        ∀ b, Sound P (next b) s (t.see (log b)) post
  | .fresh next, s, t, post => ∀ id, P.unused id s -> (∀ earlier ∈ t.ids, earlier < id) ->
      Sound P (next id) s (t.draw id) post
  | .write f next, s, t, post =>
      P.Respects t f (t.writes s) ∧ (P.Confined t s (t.writes s) -> P.Confined t s (f (t.writes s))) ∧
        Sound P next s (t.write f) post

section Rules

variable {P : Convention S R N} {s : S} {t : Trail S R N}

theorem Sound.mono {p : Prog S R N E α} {post post' : S -> α -> Trail S R N -> Prop}
    (sound : Sound P p s t post) (weaker : ∀ s a t, post s a t -> post' s a t) :
    Sound P p s t post' := by
  induction p generalizing s t with
  | done answer => exact weaker s answer t sound
  | raise error => trivial
  | rollback next ih => exact fun s' inv => ih (sound s' inv)
  | lock mode row next ih => exact ⟨sound.1, ih sound.2⟩
  | fetch query next missing ih ih_missing =>
      exact ⟨fun b found => ⟨(sound.1 b found).1, ih b (sound.1 b found).2⟩,
        ih_missing sound.2⟩
  | peek query log next ih => exact ⟨sound.1, fun b => ih b (sound.2 b)⟩
  | fresh next ih => exact fun id unused later => ih id (sound id unused later)
  | write f next ih => exact ⟨sound.1, sound.2.1, ih sound.2.2⟩

theorem sound_bind {p : Prog S R N E α} {f : α -> Prog S R N E β}
    {post : S -> β -> Trail S R N -> Prop} :
    Sound P (p.bind f) s t post ↔
      Sound P p s t (fun s' a t' => Sound P (f a) s' t' post) := by
  induction p generalizing s t with
  | done answer => rfl
  | raise error => rfl
  | rollback next ih => exact forall_congr' fun s' => imp_congr Iff.rfl ih
  | lock mode row next ih => exact and_congr Iff.rfl ih
  | fetch query next missing ih ih_missing =>
      exact and_congr (forall_congr' fun b => imp_congr Iff.rfl (and_congr Iff.rfl (ih b)))
        ih_missing
  | peek query log next ih => exact and_congr Iff.rfl (forall_congr' fun b => ih b)
  | fresh next ih =>
      exact forall_congr' fun id => imp_congr Iff.rfl (imp_congr Iff.rfl (ih id))
  | write f next ih => exact and_congr Iff.rfl (and_congr Iff.rfl ih)

/-- The rule of sequence: what the first part ends with is where the second starts. -/
theorem Sound.bind {p : Prog S R N E α} {f : α -> Prog S R N E β}
    {mid : S -> α -> Trail S R N -> Prop} {post : S -> β -> Trail S R N -> Prop}
    (first : Sound P p s t mid) (second : ∀ s a t, mid s a t -> Sound P (f a) s t post) :
    Sound P (p.bind f) s t post :=
  sound_bind.mpr (first.mono second)

theorem sound_done {a : α} {post : S -> α -> Trail S R N -> Prop} :
    Sound P (.done a : Prog S R N E α) s t post ↔ post s a t := Iff.rfl

theorem sound_raise {e : E} {post : S -> α -> Trail S R N -> Prop} :
    Sound P (.raise e) s t post := trivial

theorem sound_lock {mode : LockMode} {row : R} {post : S -> Unit -> Trail S R N -> Prop} :
    Sound P (lock mode row : Prog S R N E Unit) s t post ↔
      P.order s t.held t.retries mode row ∧ post s () (t.hold mode row) := Iff.rfl

theorem sound_fetch {query : S -> Option β} {e : E} {post : S -> β -> Trail S R N -> Prop} :
    Sound P (fetch query e : Prog S R N E β) s t post ↔ ∀ b, query (t.writes s) = some b ->
      (∀ v, P.Rely t (t.writes s) v -> query v = some b) ∧ post s b t := by
  simp only [fetch, Sound, and_true]

theorem sound_find {query : S -> Option β} {post : S -> Option β -> Trail S R N -> Prop} :
    Sound P (find query : Prog S R N E (Option β)) s t post ↔
      (∀ b, query (t.writes s) = some b ->
        (∀ v, P.Rely t (t.writes s) v -> query v = some b) ∧ post s (some b) t) ∧
      post s none t := Iff.rfl

theorem sound_observe {query : S -> β} {e : E} {post : S -> β -> Trail S R N -> Prop} :
    Sound P (observe query e : Prog S R N E β) s t post ↔
      (∀ v, P.Rely t (t.writes s) v -> query v = query (t.writes s)) ∧
        post s (query (t.writes s)) t := by
  simp only [observe, Sound, Option.some.injEq, forall_eq', and_true]

theorem sound_ensure {test : S -> Bool} {e : E} {post : S -> Unit -> Trail S R N -> Prop} :
    Sound P (ensure test e : Prog S R N E Unit) s t post ↔ (test (t.writes s) = true ->
      (∀ v, P.Rely t (t.writes s) v -> test v = true) ∧ post s () t) := by
  simp only [ensure, Sound, Option.ite_none_right_eq_some, and_true]
  constructor
  · intro sound passes
    exact sound () passes
  · intro sound b found
    exact sound found

theorem sound_peek {query : S -> β} {post : S -> β -> Trail S R N -> Prop} :
    Sound P (peek query : Prog S R N E β) s t post ↔ ∀ b, post s b t := by
  simp only [peek, Sound, List.not_mem_nil, false_implies, implies_true, true_and]
  rfl

theorem sound_peekLogged {query : S -> β} {log : β -> List N}
    {post : S -> β -> Trail S R N -> Prop} :
    Sound P (peekLogged query log : Prog S R N E β) s t post ↔
      (∀ note ∈ log (query (t.writes s)), P.noted s note) ∧
        ∀ b, post s b (t.see (log b)) := Iff.rfl

theorem sound_fresh {post : S -> Nat -> Trail S R N -> Prop} :
    Sound P (fresh : Prog S R N E Nat) s t post ↔ ∀ id, P.unused id s ->
      (∀ earlier ∈ t.ids, earlier < id) -> post s id (t.draw id) := Iff.rfl

theorem sound_write {f : S -> S} {post : S -> Unit -> Trail S R N -> Prop} :
    Sound P (write f : Prog S R N E Unit) s t post ↔
      P.Respects t f (t.writes s) ∧ (P.Confined t s (t.writes s) -> P.Confined t s (f (t.writes s))) ∧
        post s () (t.write f) := Iff.rfl

theorem sound_require {test : Bool} {e : E} {post : S -> Unit -> Trail S R N -> Prop} :
    Sound P (require test e : Prog S R N E Unit) s t post ↔ (test = true -> post s () t) := by
  cases test
  · simp only [require, Bool.false_eq_true, if_false, Sound, false_implies]
  · simp only [require, if_true, Sound, true_implies]

/-- The rule of the loop: `inv done answers` holds when the elements `done` are
behind it. -/
theorem Sound.forEach {body : β -> Prog S R N E α} {items : List β}
    {post : S -> List α -> Trail S R N -> Prop}
    (inv : List β -> List α -> S -> Trail S R N -> Prop) (before : inv [] [] s t)
    (step : ∀ done item rest answers s t, items = done ++ item :: rest -> inv done answers s t ->
      Sound P (body item) s t (fun s' a t' => inv (done ++ [item]) (answers ++ [a]) s' t'))
    (after : ∀ answers s t, inv items answers s t -> post s answers t) :
    Sound P (Transactions.forEach items body) s t post := by
  have loop : ∀ rest done answers s t, items = done ++ rest -> inv done answers s t ->
      Sound P (Transactions.forEach rest body) s t
        (fun s' more t' => inv items (answers ++ more) s' t') := by
    intro rest
    induction rest with
    | nil =>
        intro done answers s t split here
        rw [List.append_nil] at split
        subst split
        simpa only [Transactions.forEach, Sound, List.append_nil] using here
    | cons item rest ih =>
        intro done answers s t split here
        refine (step done item rest answers s t split here).bind ?_
        intro s' a t' there
        have split' : items = (done ++ [item]) ++ rest := by
          rw [split, List.append_assoc, List.singleton_append]
        refine (ih (done ++ [item]) (answers ++ [a]) s' t' split' there).bind ?_
        intro s'' more t'' last
        simpa only [Sound, List.append_assoc, List.singleton_append] using last
  exact (loop items [] [] s t rfl before).mono (fun s' answers t' last => after answers s' t' last)

end Rules

end Transactions
end Shiftlush
