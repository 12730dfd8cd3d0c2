import WattPost.Cloud.JsonDumps
import WattPost.Lib.HashChain

/-! What the hash chain of the signed audit log is for: whoever keeps the newest signed text can
tell whether the rows before it were changed, reordered or taken out. -/
namespace WattPost.SignedAudit

open Runs
open HashChain (Links Linked Collision)
open WattPost.Cloud (Json)
open WattPost.Cloud.Json (Loaded dumps stringTail stringTail_append_injective)

/-! ### What a signed text says -/

/-- `json.dumps` of the hash of the row before. -/
def prevText : Option String → List Char
  | none => "null".toList
  | some digest => '"' :: stringTail digest

theorem toList_jsonString (s : String) : (jsonString s).toList = '"' :: stringTail s := by
  have hChars : (String.ofList (s.toList.flatMap jsonChar)).toList = s.toList.flatMap jsonChar :=
    String.toList_ofList
  rw [jsonString, String.toList_append, String.toList_append, hChars]
  rfl

theorem toList_dumps (j : Json) : (dumps j).toList = Json.encode (Json.sortKeys j) :=
  String.toList_ofList

theorem toList_template (front typeKey issuerKey kidKey atKey prevKey close issuer issuerKid
    eventType eventPayload prev occurredAt : String) :
    (front ++ eventPayload ++ typeKey ++ jsonString eventType ++ issuerKey ++ jsonString issuer ++
        kidKey ++ jsonString issuerKid ++ atKey ++ jsonString occurredAt ++ prevKey ++ prev ++
        close).toList =
      front.toList ++ (eventPayload.toList ++ (typeKey.toList ++ ('"' :: (stringTail eventType ++
        (issuerKey.toList ++ ('"' :: (stringTail issuer ++ (kidKey.toList ++
          ('"' :: (stringTail issuerKid ++ (atKey.toList ++ ('"' :: (stringTail occurredAt ++
            (prevKey.toList ++ (prev.toList ++ close.toList))))))))))))))) := by
  simp only [String.toList_append, toList_jsonString, List.append_assoc, List.cons_append]

/-- Between its constant parts, the signed text has the texts of its columns. -/
theorem toList_canonicalRepr : ∃ front typeKey issuerKey kidKey atKey prevKey close : List Char,
    ∀ (issuer issuerKid eventType eventPayload : String) (prevHash : Option String)
      (occurredAt : String),
      (canonicalRepr issuer issuerKid eventType eventPayload prevHash occurredAt).toList =
        front ++ (eventPayload.toList ++ (',' :: (typeKey ++ ('"' :: (stringTail eventType ++
          (issuerKey ++ ('"' :: (stringTail issuer ++ (kidKey ++ ('"' :: (stringTail issuerKid ++
            (atKey ++ ('"' :: (stringTail occurredAt ++
              (prevKey ++ (prevText prevHash ++ close)))))))))))))))) := by
  have hComma : ",\"event_type\":".toList = ',' :: "\"event_type\":".toList := by decide
  refine ⟨"\x7b\"event_payload\":".toList, "\"event_type\":".toList, ",\"issuer\":".toList,
    ",\"issuer_kid\":".toList, ",\"occurred_at\":".toList, ",\"prev_hash\":".toList,
    "\x7d".toList, ?_⟩
  intro issuer issuerKid eventType eventPayload prevHash occurredAt
  rw [← List.cons_append, ← hComma]
  cases prevHash with
  | none => exact toList_template ..
  | some digest =>
      rw [prevText, ← toList_jsonString]
      exact toList_template ..

theorem prevText_injective {p q : Option String} {rest : List Char}
    (h : prevText p ++ rest = prevText q ++ rest) : p = q := by
  have hText := List.append_cancel_right h
  cases p with
  | none =>
      cases q with
      | none => rfl
      | some digest => exact absurd (List.cons.inj hText).1 (by decide)
  | some digest =>
      cases q with
      | none => exact absurd (List.cons.inj hText).1 (by decide)
      | some digest' =>
          have hTails : stringTail digest ++ [] = stringTail digest' ++ [] := by
            rw [(List.cons.inj hText).2]
          rw [(stringTail_append_injective hTails).1]

theorem quoted_injective {s t : String} {u v : List Char}
    (h : '"' :: (stringTail s ++ u) = '"' :: (stringTail t ++ v)) : s = t ∧ u = v :=
  stringTail_append_injective (List.cons.inj h).2

/-- A row as the cloud can read it: its payload is the canonical text of a JSON value. -/
structure AuditRow.Canonical (row : AuditRow) : Prop where
  signed : row.Signed
  payload : ∃ j, Loaded j ∧ row.eventPayload = dumps j

/-- All that the signature is about. -/
def AuditRow.content (row : AuditRow) : AuditRow := { row with signatureB64 := "" }

/-- One signed text has one content. -/
theorem content_eq_of_signedRepr {row row' : AuditRow} (h : row.Canonical) (h' : row'.Canonical)
    (hText : row.signedRepr = row'.signedRepr) : row.content = row'.content := by
  obtain ⟨j, hj, hPayload⟩ := h.payload
  obtain ⟨j', hj', hPayload'⟩ := h'.payload
  obtain ⟨front, typeKey, issuerKey, kidKey, atKey, prevKey, close, hParts⟩ :=
    toList_canonicalRepr
  have hChars := congrArg String.toList (h.signed.symm.trans (hText.trans h'.signed))
  rw [hParts, hParts, hPayload, hPayload', toList_dumps,
    toList_dumps] at hChars
  obtain ⟨hSame, hRest⟩ := Json.readsOff_encode (Json.loaded_sortKeys hj) _ _ _
    (Json.loaded_sortKeys hj') (Json.ends_comma _) (Json.ends_comma _)
    (List.append_cancel_left hChars)
  obtain ⟨hType, hRest⟩ := quoted_injective (List.append_cancel_left (List.cons.inj hRest).2)
  obtain ⟨_, hRest⟩ := quoted_injective (List.append_cancel_left hRest)
  obtain ⟨hKid, hRest⟩ := quoted_injective (List.append_cancel_left hRest)
  obtain ⟨hAt, hRest⟩ := quoted_injective (List.append_cancel_left hRest)
  have hPrev := prevText_injective (List.append_cancel_left hRest)
  have hPayloads : row.eventPayload = row'.eventPayload := by
    rw [hPayload, hPayload', dumps, dumps, hSame]
  cases row
  cases row'
  dsimp only at hText hType hKid hAt hPrev hPayloads
  subst hText hType hKid hAt hPrev hPayloads
  rfl

/-! ### The chain -/

/-- The rows as a hash chain. -/
def links (hash : String → String) : Links AuditRow String String where
  text := AuditRow.signedRepr
  prev := AuditRow.prevHash
  hash := hash

variable {hash : String → String}

theorem names_of_canonical {rows rows' : List AuditRow} (h : ∀ row ∈ rows, row.Canonical)
    (h' : ∀ row ∈ rows', row.Canonical) : HashChain.Names (links hash) rows rows' := by
  intro a ha b hb hText
  have hContent := content_eq_of_signedRepr (h a ha) (h' b hb) hText
  exact congrArg (fun row => row.prevHash) hContent

/-- A call inserts behind the row that it read, and its payload is the text of a JSON value. -/
def Written (before : List AuditStep) (s : AuditState) (step : AuditStep) : Prop :=
  TailCurrent before s step ∧
    ∀ c event, step = .readTail c event → ∃ j, Loaded j ∧ event.payload = dumps j

/-- What runs of `write_event` keep. -/
structure Trail (hash : String → String) (s : AuditState) : Prop where
  linked : Linked (links hash) s.log.rows
  canonical : ∀ row ∈ s.log.rows, row.Canonical
  waiting : ∀ c call, s.waiting c = some call → ∃ j, Loaded j ∧ call.event.payload = dumps j

theorem trail_start : Trail hash (.start .empty) where
  linked := HashChain.linked_nil
  canonical _ h := by cases h
  waiting _ _ h := by cases h

theorem Trail.readTail {s : AuditState} (h : Trail hash s) {c : Nat} {event : AuditEvent}
    (hPayload : ∃ j, Loaded j ∧ event.payload = dumps j) :
    Trail hash (auditStep hash s (.readTail c event)) := by
  simp only [auditStep]
  split
  · exact h
  · refine ⟨h.linked, h.canonical, ?_⟩
    intro d call hCall
    dsimp only at hCall
    by_cases hSame : d = c
    · rw [hSame, Function.update_self] at hCall
      cases hCall
      exact hPayload
    · rw [Function.update_of_ne hSame] at hCall
      exact h.waiting d call hCall

theorem Trail.insert {s : AuditState} (h : Trail hash s) (hReads : ReadsTail hash s) {c : Nat}
    (hTail : ∀ call, s.waiting c = some call →
      (call.event.row call.prevHash).signedRepr ∉ s.log.rows.map AuditRow.signedRepr →
        call.seen = s.log.rows.length) :
    Trail hash (auditStep hash s (.insert c)) := by
  simp only [auditStep]
  split
  · exact h
  case h_2 call hCall =>
    have hWaiting : ∀ d other, Function.update s.waiting c none d = some other →
        ∃ j, Loaded j ∧ other.event.payload = dumps j := by
      intro d other hOther
      by_cases hSame : d = c
      · rw [hSame, Function.update_self] at hOther
        cases hOther
      · rw [Function.update_of_ne hSame] at hOther
        exact h.waiting d other hOther
    refine ⟨?_, ?_, hWaiting⟩
    · rw [AuditLog.rows_insert]
      split
      · exact h.linked
      case isFalse hNew =>
        refine h.linked.concat ?_
        obtain ⟨_, hPrev⟩ := hReads c call hCall
        rw [hTail call hCall hNew, List.take_length] at hPrev
        show call.prevHash = _
        rw [hPrev]
        cases hLast : s.log.rows.getLast? with
        | none => rfl
        | some last =>
            have hSome := s.log.signed last (List.mem_of_getLast? hLast)
            exact if_neg hSome.ne_empty
    · rw [AuditLog.rows_insert]
      split
      · exact h.canonical
      · intro row hRow
        rcases List.mem_append.mp hRow with hOld | hNew
        · exact h.canonical row hOld
        · rw [List.mem_singleton.mp hNew]
          exact ⟨call.event.row_signed _, h.waiting c call hCall⟩

theorem trail_run {steps : List AuditStep}
    (h : StepsOk (auditStep hash) Written (.start .empty) steps) :
    Trail hash (run (auditStep hash) (.start .empty) steps) := by
  have hInit : Trail hash (run (auditStep hash) (.start .empty) []) := trail_start
  have hStep : ∀ before step, Trail hash (run (auditStep hash) (.start .empty) before) →
      Written before (run (auditStep hash) (.start .empty) before) step →
      Trail hash (run (auditStep hash) (.start .empty) (before ++ [step])) := by
    intro before step hTrail hOk
    rw [run_concat]
    cases step with
    | readTail c event => exact hTrail.readTail (hOk.2 c event rfl)
    | insert c => exact hTrail.insert (readsTail_run .empty before) hOk.1
  exact invariant hInit hStep h

/-- After a run in which no call of `write_event` inserts between the read of another and its
insert, a table that verifies as a chain and still has the newest signed text has all the rows
that were written, as they were and in their order, or it shows two texts with one hash. -/
theorem audit_tamper_evident {steps : List AuditStep}
    (h : StepsOk (auditStep hash) Written (.start .empty) steps) {last : AuditRow}
    (hLast : (run (auditStep hash) (.start .empty) steps).log.rows.getLast? = some last)
    {rows : List AuditRow} (hRows : Linked (links hash) rows)
    (hCanonical : ∀ row ∈ rows, row.Canonical)
    (hKept : last.signedRepr ∈ rows.map AuditRow.signedRepr) :
    (run (auditStep hash) (.start .empty) steps).log.rows.map AuditRow.content <+:
        rows.map AuditRow.content ∨
      Collision (links hash) (run (auditStep hash) (.start .empty) steps).log.rows rows := by
  have hTrail := trail_run h
  generalize run (auditStep hash) (.start .empty) steps = s at hTrail hLast ⊢
  have hSplit : s.log.rows.dropLast ++ [last] = s.log.rows := List.dropLast_append_getLast? _ hLast
  have hPrefix := HashChain.prefix_or_collision (hSplit.symm ▸ hTrail.linked) hRows hKept
    (hSplit.symm ▸ names_of_canonical hTrail.canonical hCanonical)
  rw [hSplit] at hPrefix
  refine hPrefix.imp (fun hTexts => ?_) fun hCollides =>
    hCollides.mono (List.dropLast_subset _) (List.Subset.refl _)
  exact HashChain.map_prefix_of_texts hTexts fun a ha b hb hText =>
    content_eq_of_signedRepr (hTrail.canonical a ha) (hCanonical b hb) hText

theorem canonical_row {event : AuditEvent} {prev : Option String}
    (h : ∃ j, Loaded j ∧ event.payload = dumps j) : (event.row prev).Canonical :=
  ⟨event.row_signed prev, h⟩

/-- The payload of `loginFailed`. -/
theorem payload_loginFailed : ∃ j, Loaded j ∧ loginFailed.payload = dumps j :=
  ⟨.obj [], trivial, by decide⟩

/-- The log after a failed login, and the table after a second one, with texts for hashes. -/
theorem audit_tamper_evident_login :
    [(loginFailed.row none).content] <+:
      [loginFailed.row none, loginOk.row (some (loginFailed.row none).signedRepr)].map
        AuditRow.content := by
  have hSteps : StepsOk (auditStep fun text => text) Written (.start .empty)
      [.readTail 0 loginFailed, .insert 0] := by
    refine stepsOk_cons.mpr ⟨⟨trivial, ?_⟩, stepsOk_cons.mpr ⟨⟨?_, ?_⟩, stepsOk_nil⟩⟩
    · rintro c event ⟨⟩
      exact payload_loginFailed
    · intro call hCall _
      cases hCall
      rfl
    · rintro c event ⟨⟩
  have hRows : Linked (links fun text => text)
      [loginFailed.row none, loginOk.row (some (loginFailed.row none).signedRepr)] := by
    refine ⟨List.isChain_pair.mpr rfl, ?_⟩
    rintro first ⟨⟩
    rfl
  have hCanonical : ∀ row ∈ [loginFailed.row none,
      loginOk.row (some (loginFailed.row none).signedRepr)], row.Canonical := by
    intro row hRow
    rcases List.mem_cons.mp hRow with rfl | hRow
    · exact canonical_row payload_loginFailed
    · rw [List.mem_singleton.mp hRow]
      exact canonical_row payload_loginFailed
  refine (audit_tamper_evident hSteps rfl hRows hCanonical List.mem_cons_self).resolve_right ?_
  rintro ⟨a, _, b, _, hTexts, hHash⟩
  exact hTexts hHash

end WattPost.SignedAudit
