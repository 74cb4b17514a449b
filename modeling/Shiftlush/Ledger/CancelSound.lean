import Shiftlush.Ledger.DocumentsSound

namespace Shiftlush
namespace Ledger

open Transactions

/-!
# Cancelling a document follows the convention

The rules of `_cancel` and of `cancel_collection`.  The mirrors refer to the
sides of the originals, which nobody has locked: their keys are asked for at
the commit, in the order the movements were written.  That is in order for
every document but a transfer towards the smaller key.
-/

variable {s : Books} {t : Trail Books Row Note}

/-! ## The rows the mirrors refer to -/

/-- The sides of the legs, as they are asked for. -/
def Voucher.references (w : Voucher) (firm : Id) : List Row :=
  w.legs.flatMap (fun leg => (w.movement firm "" leg).references)

theorem Originals.references {w : Voucher} {rows : Rows Movement} (originals : Originals w rows) :
    ∃ firm, rows.flatMap (fun r => r.2.references) = w.references firm := by
  rcases originals.legs with ⟨firm, currency, legs⟩
  refine ⟨firm, ?_⟩
  have mapped : rows.flatMap (fun r => r.2.references) =
      (rows.map (·.2)).flatMap Movement.references := by rw [List.flatMap_map]
  rw [mapped, legs, List.flatMap_map]
  rfl

theorem Mirrors.references {originals rows : Rows Movement} (mirrors : Mirrors originals rows) :
    rows.flatMap (fun r => r.2.references) = originals.flatMap (fun r => r.2.references) := by
  rcases mirrors with ⟨day, source, swapped⟩
  have mapped : rows.flatMap (fun r => r.2.references) =
      (rows.map (·.2)).flatMap Movement.references := by rw [List.flatMap_map]
  rw [mapped, swapped, List.flatMap_map]
  congr 1
  funext r
  unfold Movement.references Movement.mirror
  rw [Option.map_map, Option.map_map]
  rfl

/-- In order, but for what two sessions may share. -/
def InOrder (rows : List Row) : Prop :=
  rows.Pairwise (fun a b => a.isCompany = true ∨ b.isCompany = true ∨ a = b ∨ a.before b)

/-- A document's sides are in order unless it is a transfer the wrong way round. -/
theorem Document.references_inOrder (id firm : Id) (d : Document) (straight : d.crosswise = false) :
    InOrder ((d.voucher id).references firm) := by
  unfold InOrder Voucher.references Document.voucher
  cases body : d.body with
  | accountTransfer source target =>
      unfold Document.crosswise at straight
      rw [body] at straight
      have le : source ≤ target := Nat.not_lt.mp (of_decide_eq_false straight)
      rcases Nat.eq_or_lt_of_le le with same | lt
      · simp [DocumentBody.legs, Voucher.movement, Movement.references, Row.isCompany, same]
      · simp [DocumentBody.legs, Voucher.movement, Movement.references, Row.isCompany, Row.before,
          Row.kind, Row.key, lt]
  | cashTransfer source target =>
      unfold Document.crosswise at straight
      rw [body] at straight
      have le : source ≤ target := Nat.not_lt.mp (of_decide_eq_false straight)
      rcases Nat.eq_or_lt_of_le le with same | lt
      · simp [DocumentBody.legs, Voucher.movement, Movement.references, Row.isCompany, same]
      · simp [DocumentBody.legs, Voucher.movement, Movement.references, Row.isCompany, Row.before,
          Row.kind, Row.key, lt]
  | _ =>
      simp [DocumentBody.legs, Voucher.movement, Movement.references, Row.isCompany, Row.before,
        Row.kind]

theorem InvoiceDraft.references_inOrder (id account firm : Id) (draft : InvoiceDraft) :
    InOrder ((draft.voucher id account).references firm) := by
  unfold InOrder Voucher.references InvoiceDraft.voucher
  by_cases zero : draft.total = 0
  · simp [zero]
  · simp [zero, Voucher.movement, Movement.references, Row.isCompany]

/-! ## _stamp_cancelled -/

/-- What `_stamp_cancelled` leaves behind. -/
structure Stamped (s : Books) (t t' : Trail Books Row Note) (id : Id) (d : Document) (day : Date)
    (rows : Rows Movement) : Prop where
  later : Later t t'
  fit : Fit s t'
  view : t'.writes s = s.reverse id day rows
  reversible : Reversible s id d rows
  noted : ∀ r ∈ rows, Note.dateOpen r.2.company r.2.date ∈ t'.seen
  bound : ∀ h ∈ t'.held, h ∈ t.held ∨ h.2.kind = 5

theorem sound_stampCancelled {type : DocumentType} {id : Id} {d : Document}
    {post : Books -> Rows Movement -> Trail Books Row Note -> Prop} (fit : Fit s t)
    (sound : SoundBooks s) (untouched : t.writes s = s) (locked : t.Locked (.document id))
    (found : s.documents.get? id = some d) (typed : d.body.type = type)
    (standing : d.standing = true) (below : Below t 5)
    (invoices : ∀ r ∈ s.applicationsOf id, t.Locked (.invoice r.2.invoice))
    (after : ∀ day rows t', Stamped s t t' id d day rows -> post s rows t') :
    Sound convention (stampCancelled type id) s t post := by
  unfold stampCancelled
  simp only [Prog.bind_eq, Prog.pure_eq, sound_bind, sound_peek]
  intro today
  subst typed
  apply sound_reverseDocument (w := d.voucher id) fit sound untouched (sound.documents id d found)
    (.document rfl locked found) _ below
  · intro rows t₁ reversed _
    simp only [sound_write, sound_done]
    have applied : ∀ r ∈ (t₁.writes s).applicationsOf id, t₁.Locked (.invoice r.2.invoice) := by
      rw [reversed.view]
      exact fun r mem => reversed.later.locked (invoices r mem)
    have confined : convention.Confined t₁ s (t₁.writes s) ->
        convention.Confined t₁ s ((t₁.writes s).stampCancelled id today) :=
      confined_stampCancelled (reversed.later.locked locked) applied
    refine ⟨respects_stampCancelled, confined, ?_⟩
    apply after today
    refine ⟨⟨reversed.later.held, reversed.later.ids, reversed.later.seen, reversed.later.retries⟩, ?_,
      ?_, ?_, reversed.noted, reversed.bound⟩
    · exact reversed.fit.write (confined reversed.fit.confined) rfl reversed.fit.keys
        reversed.fit.sides
    · rw [Trail.write_writes, reversed.view]
      rfl
    · exact ⟨found, standing, reversed.mirrors, reversed.keys, reversed.fresh⟩
  · intro v rely
    have kept : (Row.document id).kept s v := rely.rows _ locked
    exact (kept d found).entries

/-- The keys the mirrors of a document need at the commit. -/
theorem Stamped.keys {t' t'' : Trail Books Row Note} {id : Id} {d : Document} {day : Date}
    {rows : Rows Movement} (stamped : Stamped s t t' id d day rows) (sound : SoundBooks s)
    (below : Below t 6) (locked : t.Locked (.document id)) (held : t''.held = t'.held) :
    KeysFit s t'' rows := by
  cases straight : d.crosswise with
  | true =>
      apply KeysFit.crosswise
      refine ⟨id, d, ?_, stamped.reversible.found, straight⟩
      rw [held]
      exact stamped.later.held _ locked
  | false =>
      apply KeysFit.sorted
      · exact (below.locking stamped.bound (by decide)).same held
      · have entered := sound.documents id d stamped.reversible.found
        rw [stamped.reversible.standing] at entered
        rw [stamped.reversible.mirrors.references]
        cases entered with
        | standing originals rows_eq =>
            have same : (d.voucher id).document = d.ref id := rfl
            rcases originals.references with ⟨firm, refers⟩
            rw [← same, rows_eq, refers]
            exact d.references_inOrder id firm straight

/-- Only collections pay invoices. -/
theorem SoundBooks.unapplied {v : Books} (sound : SoundBooks v) {id : Id} {d : Document}
    (found : v.documents.get? id = some d) (type : d.body.type ≠ .collection) :
    v.applicationsOf id = [] := by
  apply List.eq_nil_iff_forall_not_mem.mpr
  intro r mem
  rcases List.mem_filter.mp mem with ⟨listed, at_id⟩
  rcases (sound.applied r listed).pair with ⟨d', _, _, _, _, _, _, found', body, _⟩
  rw [of_decide_eq_true at_id, found] at found'
  cases found'
  rw [body] at type
  exact type rfl

theorem sound_cancelDocument {type : DocumentType} {id : Id}
    {post : Books -> Rows Movement -> Trail Books Row Note -> Prop} (other : type ≠ .collection)
    (fit : Fit s t) (sound : SoundBooks s) (untouched : t.writes s = s) (start : Below t 0)
    (after : ∀ written t', Served s t' written -> post s written t') :
    Sound convention (cancelDocument type id) s t post := by
  unfold cancelDocument
  simp only [Prog.bind_eq, sound_bind]
  apply sound_lockDocument (Below.order (start.mono (Nat.zero_le _)) fit rfl)
  intro d found typed standing
  rw [untouched] at found
  have unapplied := sound.unapplied found (typed ▸ other)
  have below : Below (t.hold .update (.document id)) 2 := (start.mono (Nat.zero_le 2)).hold (Nat.lt_succ_self 1)
  apply sound_stampCancelled (fit.hold _ rfl) sound untouched List.mem_cons_self found typed standing
    (below.mono (by decide))
  · intro r mem
    rw [unapplied] at mem
    cases mem
  · intro day rows t₁ stamped
    apply after
    refine ⟨?_, stamped.fit, stamped.noted,
      stamped.keys sound (below.mono (by decide)) List.mem_cons_self rfl⟩
    refine @LedgerStep.reversed s _ _ id d day [] stamped.reversible ?_ ?_
    · intro r mem
      rw [unapplied] at mem
      cases mem
    · rw [stamped.view]
      exact Syncs.nothing _

/-! ## cancel_collection -/

theorem sound_finishCancel {collection : Id} {d : Document} {applied : List Id}
    {post : Books -> Rows Movement -> Trail Books Row Note -> Prop} (fit : Fit s t)
    (sound : SoundBooks s) (untouched : t.writes s = s) (locked : t.Locked (.document collection))
    (found : s.documents.get? collection = some d) (type : d.body.type = .collection)
    (standing : d.standing = true) (below : Below t 5)
    (all : applied = s.appliedInvoices collection)
    (invoices : ∀ id ∈ applied, t.Locked (.invoice id))
    (after : ∀ written t', Served s t' written -> post s written t') :
    Sound convention (finishCancel collection applied) s t post := by
  have touched : ∀ r ∈ s.applicationsOf collection, r.2.invoice ∈ applied := by
    intro r mem
    rw [all]
    exact List.mem_map_of_mem (f := fun r => r.2.invoice) mem
  unfold finishCancel
  simp only [Prog.bind_eq, Prog.pure_eq, sound_bind]
  apply sound_stampCancelled fit sound untouched locked found type standing below
    (fun r mem => invoices _ (touched r mem))
  intro day rows t₁ stamped
  apply sound_syncInvoices stamped.fit (fun id mem => stamped.later.locked (invoices id mem))
  intro t₂ settling
  simp only [sound_done]
  apply after
  refine ⟨?_, settling.fit, fun r mem => settling.later.seen _ (stamped.noted r mem),
    stamped.keys sound (below.mono (by decide)) locked settling.held⟩
  have syncs := settling.syncs
  rw [stamped.view] at syncs
  exact LedgerStep.reversed stamped.reversible touched syncs

/-- Every attempt, by induction on those left. -/
theorem sound_cancelCollection {collection : Id} {attempts retries : Nat}
    {post : Books -> Rows Movement -> Trail Books Row Note -> Prop} (inv : Inv s)
    (left : retries + attempts = cancelAttempts)
    (after : ∀ s written t', Inv s -> Served s t' written -> post s written t') :
    Sound convention (cancelCollection collection attempts) s (.start retries) post := by
  induction attempts generalizing s retries with
  | zero => trivial
  | succ attempts ih =>
      have fit : Fit s (.start retries) := Fit.start inv.toSoundBooks retries
      have start : Below (.start retries) 0 := .start 0 retries
      simp only [cancelCollection, Prog.bind_eq, sound_bind, sound_peek]
      intro invoiceIds
      apply sound_lockInvoices fit (start.fits (fun _ => rfl) _)
      intro t₁ locking fit₁ locked bound
      have view : t₁.writes s = s := locking.view s
      have below₁ : Below t₁ 1 := start.of_bound bound (by decide)
      apply sound_lockDocument (Below.order below₁ fit₁ rfl)
      intro d found type standing
      rw [view] at found
      have fit₂ : Fit s (t₁.hold .update (.document collection)) := fit₁.hold _ rfl
      have below₂ : Below (t₁.hold .update (.document collection)) 2 :=
        (below₁.mono (Nat.le_succ 1)).hold (Nat.lt_succ_self 1)
      simp only [sound_observe, Trail.hold_writes, view]
      refine ⟨?_, ?_⟩
      · intro v rely
        have kept : (Row.document collection).kept s v := rely.rows _ List.mem_cons_self
        unfold Books.appliedInvoices
        rw [(kept d found).applications]
      · by_cases covered : s.appliedInvoices collection ⊆ invoiceIds
        · rw [if_pos covered]
          apply sound_finishCancel fit₂ inv.toSoundBooks view List.mem_cons_self found type standing
            (below₂.mono (by decide)) rfl
          · exact fun id mem => List.mem_cons_of_mem _ (locked id (covered mem))
          · exact fun written t' => after s written t' inv
        · rw [if_neg covered]
          by_cases last : attempts ≠ 0
          · rw [if_pos last]
            intro s' inv'
            apply ih inv'
            rw [Trail.hold_retries, locking.retries]
            simp only [Trail.start_retries]
            omega
          · rw [if_neg last]
            simp only [sound_bind]
            -- The newcomers are locked after the document.
            apply sound_lockInvoices fit₂
            · apply FitsIn.late
              rw [Trail.hold_retries, locking.retries]
              simp only [Trail.start_retries]
              omega
            · intro t₂ locking₂ fit₃ newcomers bound₂
              apply sound_finishCancel fit₃ inv.toSoundBooks ((locking₂.view s).trans view)
                (locking₂.held _ List.mem_cons_self) found type standing _ rfl
              · intro id mem
                by_cases early : id ∈ invoiceIds
                · exact locking₂.held _ (List.mem_cons_of_mem _ (locked id early))
                · exact newcomers id (List.mem_filter.mpr ⟨mem, decide_eq_true early⟩)
              · exact fun written t' => after s written t' inv
              · exact (below₂.mono (by decide)).locking bound₂ (by decide)

end Ledger
end Shiftlush
