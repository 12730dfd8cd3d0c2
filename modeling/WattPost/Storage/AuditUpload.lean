import WattPost.Storage.AuditTrail

/-! How the signed audit log gets to the cloud. Every heartbeat carries the oldest rows that are
not marked as uploaded, as many as fit, and the rows that the answer acknowledges are marked.
Requests and answers get lost, and then rows are sent again. -/
namespace WattPost.SignedAudit

open HashChain (Linked Collision)
open WattPost.Cloud.Json (Loaded dumps)

/-- A row of `signed_audit_log` with the columns that the upload reads. -/
structure UploadRow where
  id : Int
  row : AuditRow
  uploadedAt : Option String

/-! ### The batch -/

/-- `fetch_pending`. The rows stand in the order of their ids. -/
def fetchPending (limit : Nat) (table : List UploadRow) : List UploadRow :=
  (table.filter fun r => r.uploadedAt.isNone).take limit

/-- The loop over the pending rows: rows are kept as long as they fit, and the first in any
case. -/
def keepWithin (size : UploadRow → Nat) (budget : Nat) :
    Nat → Bool → List UploadRow → List UploadRow
  | _, _, [] => []
  | used, any, r :: rest =>
      if any = true ∧ budget < used + size r then []
      else r :: keepWithin size budget (used + size r) true rest

/-- `signed_audit_pending`. The size of a row is that of its JSON text. -/
def signedAuditPending (size : UploadRow → Nat) (table : List UploadRow) : List UploadRow :=
  keepWithin size 3500 0 false (fetchPending 50 table)

/-- `mark_uploaded`. -/
def markUploaded (now : String) (ids : List Int) (table : List UploadRow) : List UploadRow :=
  table.map fun r =>
    if ids.contains r.id && r.uploadedAt.isNone then { r with uploadedAt := some now } else r

theorem keepWithin_subset (size : UploadRow → Nat) (budget used : Nat) (any : Bool)
    (rows : List UploadRow) : keepWithin size budget used any rows ⊆ rows := by
  induction rows generalizing used any with
  | nil => exact List.Subset.refl _
  | cons r rest ih =>
      rw [keepWithin]
      split
      · exact List.nil_subset _
      · exact List.cons_subset_cons r (ih _ _)

/-- Only rows that are pending are sent. -/
theorem signedAuditPending_subset (size : UploadRow → Nat) (table : List UploadRow) :
    signedAuditPending size table ⊆ table := by
  refine List.Subset.trans (keepWithin_subset _ _ _ _ _) ?_
  exact List.Subset.trans (List.take_subset _ _) List.filter_sublist.subset

/-! ### The cloud -/

variable {hash : String → String}

/-- What the cloud takes of a batch: rows that it does not take it skips, and it takes only what
continues the chain that it has. -/
inductive Ingests (hash : String → String) :
    List AuditRow → List AuditRow → List AuditRow → Prop where
  | done (cloud : List AuditRow) : Ingests hash cloud [] cloud
  | skip {cloud cloud' rest : List AuditRow} (row : AuditRow)
      (hRest : Ingests hash cloud rest cloud') : Ingests hash cloud (row :: rest) cloud'
  | take {cloud cloud' rest : List AuditRow} (row : AuditRow)
      (hPrev : row.prevHash = cloud.getLast?.map fun last => hash last.signedRepr)
      (hRest : Ingests hash (cloud ++ [row]) rest cloud') :
      Ingests hash cloud (row :: rest) cloud'

/-! ### Runs -/

/-- A call of `write_event` that has read the newest signed text and not inserted yet. -/
structure Writing where
  event : AuditEvent
  tail : Option String

def Writing.row (hash : String → String) (call : Writing) : AuditRow :=
  call.event.row (AuditLog.prevHash hash call.tail)

structure World where
  table : List UploadRow
  writing : List Writing
  cloud : List AuditRow

def World.rows (w : World) : List AuditRow := w.table.map UploadRow.row

/-- `_tail_signed_repr`. -/
def World.tail (w : World) : Option String := w.rows.getLast?.map AuditRow.signedRepr

/-- A call of `write_event` reads or inserts, or a heartbeat. Calls insert in turn: none between
the read of another and its insert. A call may also fail, for instance by `UNIQUE`. The extras
of a heartbeat may shed the batch, the request may get lost, and so may the answer. An answer
acknowledges rows that the cloud has. -/
inductive World.Step (hash : String → String) : World → World → Prop where
  | read (w : World) (event : AuditEvent) (hPayload : ∃ j, Loaded j ∧ event.payload = dumps j) :
      Step hash w { w with writing := w.writing ++ [⟨event, w.tail⟩] }
  | insert (w : World) (call : Writing) (front back : List Writing) (id : Int)
      (hCall : w.writing = front ++ call :: back) (hTurn : call.tail = w.tail)
      (hId : ∀ r ∈ w.table, r.id < id)
      (hUnique : (call.row hash).signedRepr ∉ w.rows.map AuditRow.signedRepr) :
      Step hash w
        { w with table := w.table ++ [⟨id, call.row hash, none⟩], writing := front ++ back }
  | fail (w : World) (call : Writing) (front back : List Writing)
      (hCall : w.writing = front ++ call :: back) :
      Step hash w { w with writing := front ++ back }
  | lost (w : World) : Step hash w w
  | unanswered (w : World) (size : UploadRow → Nat) (cloud : List AuditRow)
      (hIngests :
        Ingests hash w.cloud ((signedAuditPending size w.table).map UploadRow.row) cloud) :
      Step hash w { w with cloud := cloud }
  | answered (w : World) (size : UploadRow → Nat) (cloud : List AuditRow) (now : String)
      (acked : List Int)
      (hIngests : Ingests hash w.cloud ((signedAuditPending size w.table).map UploadRow.row) cloud)
      (hAcked : ∀ r ∈ w.table, r.id ∈ acked → r.row ∈ cloud) :
      Step hash w { w with table := markUploaded now acked w.table, cloud := cloud }

def World.start : World := ⟨[], [], []⟩

inductive World.Reachable (hash : String → String) : World → Prop where
  | start : Reachable hash .start
  | step {w w' : World} : Reachable hash w → World.Step hash w w' → Reachable hash w'

/-- No two texts of the log have one hash. -/
def Apart (hash : String → String) (rows : List AuditRow) : Prop :=
  ∀ a ∈ rows, ∀ b ∈ rows, hash a.signedRepr = hash b.signedRepr → a.signedRepr = b.signedRepr

/-- What holds between the log and the cloud's copy. -/
structure Synced (hash : String → String) (w : World) : Prop where
  linked : Linked (links hash) w.rows
  canonical : ∀ row ∈ w.rows, row.Canonical
  unique : (w.rows.map AuditRow.signedRepr).Nodup
  copy : w.cloud <+: w.rows
  marked : ∀ r ∈ w.table, r.uploadedAt ≠ none → r.row ∈ w.cloud
  payloads : ∀ call ∈ w.writing, ∃ j, Loaded j ∧ call.event.payload = dumps j

theorem row_eq_of_signedRepr {rows : List AuditRow} (h : (rows.map AuditRow.signedRepr).Nodup)
    {a b : AuditRow} (ha : a ∈ rows) (hb : b ∈ rows) (hText : a.signedRepr = b.signedRepr) :
    a = b := List.inj_on_of_nodup_map h ha hb hText

/-- A row of the log that continues the cloud's copy is the next one. -/
theorem prefix_take {rows cloud : List AuditRow} (hLinked : Linked (links hash) rows)
    (hCanonical : ∀ row ∈ rows, row.Canonical) (hUnique : (rows.map AuditRow.signedRepr).Nodup)
    (hApart : Apart hash rows) (hCopy : cloud <+: rows) {row : AuditRow} (hRow : row ∈ rows)
    (hPrev : row.prevHash = cloud.getLast?.map fun last => hash last.signedRepr) :
    cloud ++ [row] <+: rows := by
  have hSubset : cloud ++ [row] ⊆ rows :=
    List.append_subset.mpr ⟨hCopy.subset, List.cons_subset.mpr ⟨hRow, List.nil_subset _⟩⟩
  have hNext : Linked (links hash) (cloud ++ [row]) := (hLinked.of_prefix hCopy).concat hPrev
  have hPrefix := HashChain.prefix_or_collision hNext hLinked (List.mem_map_of_mem hRow)
    ((names_of_canonical hCanonical hCanonical).mono hSubset (List.Subset.refl _))
  have hTexts := hPrefix.resolve_right fun hCollides => by
    obtain ⟨a, ha, b, hb, hTexts, hHash⟩ := hCollides
    exact hTexts (hApart a (hCopy.subset ha) b hb hHash)
  have hSame := HashChain.map_prefix_of_texts (g := id) hTexts fun a ha b hb hText =>
    row_eq_of_signedRepr hUnique (hSubset ha) hb hText
  rwa [List.map_id, List.map_id] at hSame

theorem prefix_ingests {rows batch cloud cloud' : List AuditRow}
    (hIngests : Ingests hash cloud batch cloud') (hLinked : Linked (links hash) rows)
    (hCanonical : ∀ row ∈ rows, row.Canonical) (hUnique : (rows.map AuditRow.signedRepr).Nodup)
    (hApart : Apart hash rows) (hBatch : batch ⊆ rows) (hCopy : cloud <+: rows) :
    cloud' <+: rows ∧ cloud <+: cloud' := by
  induction hIngests with
  | done cloud => exact ⟨hCopy, List.prefix_refl _⟩
  | skip row _ ih => exact ih (List.Subset.trans (List.subset_cons_self _ _) hBatch) hCopy
  | take row hPrev _ ih =>
      have hNext := prefix_take hLinked hCanonical hUnique hApart hCopy
        (hBatch List.mem_cons_self) hPrev
      obtain ⟨hDone, hGrown⟩ := ih (List.Subset.trans (List.subset_cons_self _ _) hBatch) hNext
      exact ⟨hDone, (List.prefix_append _ _).trans hGrown⟩

theorem rows_markUploaded (now : String) (ids : List Int) (table : List UploadRow) :
    (markUploaded now ids table).map UploadRow.row = table.map UploadRow.row := by
  rw [markUploaded, List.map_map]
  refine List.map_congr_left fun r _ => ?_
  show (if _ then _ else _ : UploadRow).row = r.row
  split <;> rfl

/-- A heartbeat that arrives. -/
theorem Synced.ingest {w : World} (h : Synced hash w) (hApart : Apart hash w.rows)
    {size : UploadRow → Nat} {cloud : List AuditRow} (hIngests : Ingests hash w.cloud
      ((signedAuditPending size w.table).map UploadRow.row) cloud) :
    cloud <+: w.rows ∧ w.cloud <+: cloud :=
  prefix_ingests hIngests h.linked h.canonical h.unique hApart
    (List.map_subset _ (signedAuditPending_subset _ _)) h.copy

theorem Synced.payloads_of_removed {w : World} (h : Synced hash w) {call : Writing}
    {front back : List Writing} (hCall : w.writing = front ++ call :: back) :
    ∀ other ∈ front ++ back, ∃ j, Loaded j ∧ other.event.payload = dumps j := by
  intro other hOther
  refine h.payloads other ?_
  rw [hCall]
  exact (List.sublist_cons_self call back).append_left front |>.subset hOther

theorem Synced.insert {w : World} (h : Synced hash w) {call : Writing} {front back : List Writing}
    (id : Int) (hCall : w.writing = front ++ call :: back) (hTurn : call.tail = w.tail)
    (hUnique : (call.row hash).signedRepr ∉ w.rows.map AuditRow.signedRepr) :
    Synced hash
      { w with table := w.table ++ [⟨id, call.row hash, none⟩], writing := front ++ back } := by
  have hRows : World.rows
      { w with table := w.table ++ [⟨id, call.row hash, none⟩], writing := front ++ back } =
        w.rows ++ [call.row hash] := by
    rw [World.rows, List.map_append]
    rfl
  refine ⟨?_, ?_, ?_, ?_, ?_, ?_⟩
  · rw [hRows]
    refine h.linked.concat ?_
    show AuditLog.prevHash hash call.tail = _
    rw [hTurn, World.tail]
    cases hLast : w.rows.getLast? with
    | none => rfl
    | some last => exact if_neg (h.canonical last (List.mem_of_getLast? hLast)).signed.ne_empty
  · rw [hRows]
    intro other hOther
    rcases List.mem_append.mp hOther with hOld | hNew
    · exact h.canonical other hOld
    · rw [List.mem_singleton.mp hNew]
      refine canonical_row (h.payloads call ?_)
      rw [hCall]
      exact List.mem_append_right _ List.mem_cons_self
  · rw [hRows, List.map_append, List.nodup_append_comm]
    exact List.nodup_cons.mpr ⟨hUnique, h.unique⟩
  · rw [hRows]
    exact h.copy.trans (List.prefix_append _ _)
  · intro r hr hMarked
    rcases List.mem_append.mp hr with hOld | hNew
    · exact h.marked r hOld hMarked
    · rw [List.mem_singleton.mp hNew] at hMarked
      exact absurd rfl hMarked
  · exact h.payloads_of_removed hCall

theorem Synced.mark {w : World} (h : Synced hash w) {cloud : List AuditRow}
    (hCopy : cloud <+: w.rows) (hGrown : w.cloud <+: cloud) {now : String} {acked : List Int}
    (hAcked : ∀ r ∈ w.table, r.id ∈ acked → r.row ∈ cloud) :
    Synced hash { w with table := markUploaded now acked w.table, cloud := cloud } := by
  have hRows : World.rows { w with table := markUploaded now acked w.table, cloud := cloud } =
      w.rows := rows_markUploaded now acked w.table
  refine ⟨hRows ▸ h.linked, hRows ▸ h.canonical, hRows ▸ h.unique, hRows ▸ hCopy, ?_, h.payloads⟩
  intro r hr hMarked
  obtain ⟨old, hOld, rfl⟩ := List.mem_map.mp hr
  split at hMarked
  case isTrue hNew =>
    rw [if_pos hNew]
    rw [Bool.and_eq_true, List.contains_iff_mem] at hNew
    exact hAcked old hOld hNew.1
  case isFalse hSame =>
    rw [if_neg hSame]
    exact hGrown.subset (h.marked old hOld hMarked)

theorem World.Step.rows_prefix {w w' : World} (h : World.Step hash w w') : w.rows <+: w'.rows := by
  cases h with
  | read event hPayload => exact List.prefix_refl _
  | insert call front back id hCall hTurn hId hUnique =>
      rw [World.rows, World.rows, List.map_append]
      exact List.prefix_append _ _
  | fail call front back hCall => exact List.prefix_refl _
  | lost => exact List.prefix_refl _
  | unanswered size cloud hIngests => exact List.prefix_refl _
  | answered size cloud now acked hIngests hAcked =>
      rw [World.rows, World.rows, rows_markUploaded]

theorem Apart.of_prefix {rows rows' : List AuditRow} (h : Apart hash rows')
    (hPrefix : rows <+: rows') : Apart hash rows :=
  fun a ha b hb => h a (hPrefix.subset ha) b (hPrefix.subset hb)

theorem World.Reachable.synced {w : World} (h : World.Reachable hash w)
    (hApart : Apart hash w.rows) : Synced hash w := by
  induction h with
  | start =>
      refine ⟨HashChain.linked_nil, ?_, List.nodup_nil, List.prefix_refl _, ?_, ?_⟩
      · intro row hRow
        cases hRow
      · intro r hr
        cases hr
      · intro call hCall
        cases hCall
  | step _ hStep ih =>
      have hBefore := hApart.of_prefix hStep.rows_prefix
      have hSynced := ih hBefore
      cases hStep with
      | read event hPayload =>
          refine { hSynced with payloads := fun call hCall => ?_ }
          rcases List.mem_append.mp hCall with hOld | hNew
          · exact hSynced.payloads call hOld
          · rw [List.mem_singleton.mp hNew]
            exact hPayload
      | insert call front back id hCall hTurn hId hUnique =>
          exact hSynced.insert id hCall hTurn hUnique
      | fail call front back hCall =>
          exact { hSynced with payloads := hSynced.payloads_of_removed hCall }
      | lost => exact hSynced
      | unanswered size cloud hIngests =>
          obtain ⟨hCopy, hGrown⟩ := hSynced.ingest hBefore hIngests
          exact { hSynced with
            copy := hCopy
            marked := fun r hr hMarked => hGrown.subset (hSynced.marked r hr hMarked) }
      | answered size cloud now acked hIngests hAcked =>
          obtain ⟨hCopy, hGrown⟩ := hSynced.ingest hBefore hIngests
          exact hSynced.mark hCopy hGrown hAcked

/-- In runs whose calls insert in turn, with a cloud that takes only what continues its copy and
acknowledges only what it has, and with no two texts of one hash: the cloud has the beginning of
the log, every row once and in its order, and the appliance marks no row that the cloud has not
got. -/
theorem cloud_copy_of_trail {w : World} (h : World.Reachable hash w) (hApart : Apart hash w.rows) :
    w.cloud <+: w.rows ∧ (w.cloud.map AuditRow.signedRepr).Nodup ∧
      ∀ r ∈ w.table, r.uploadedAt ≠ none → r.row ∈ w.cloud := by
  have hSynced := h.synced hApart
  exact ⟨hSynced.copy, hSynced.unique.sublist (hSynced.copy.sublist.map _), hSynced.marked⟩

/-- While a login is written, a heartbeat finds nothing; of the next two, one gets no answer and
the other one does. -/
theorem cloud_copy_of_trail_login : ∃ w : World, World.Reachable (fun text => text) w ∧
    w.cloud = [loginFailed.row none] ∧ w.cloud <+: w.rows := by
  have hRead : World.Reachable (fun text => text) ⟨[], [⟨loginFailed, none⟩], []⟩ :=
    World.Reachable.start.step (.read _ loginFailed payload_loginFailed)
  have hWritten : World.Reachable (fun text => text) ⟨[⟨1, loginFailed.row none, none⟩], [], []⟩ :=
    (hRead.step (.lost _)).step (.insert _ ⟨loginFailed, none⟩ [] [] 1 rfl rfl (by simp)
      (by simp [World.rows]))
  have hBatch : Ingests (fun text => text) [] [loginFailed.row none] [loginFailed.row none] :=
    .take _ rfl (.done _)
  have hAgain : Ingests (fun text => text) [loginFailed.row none] [loginFailed.row none]
      [loginFailed.row none] := .skip _ (.done _)
  have hSilent := hWritten.step (.unanswered _ (fun _ => 400) _ hBatch)
  have hAnswered := hSilent.step (.answered _ (fun _ => 400) _ "2026-01-01T00:05:00+00:00" [1]
    hAgain ?_)
  · exact ⟨_, hAnswered, rfl, (cloud_copy_of_trail hAnswered fun a _ b _ hText => hText).1⟩
  · intro r hr _
    rw [List.mem_singleton.mp hr]
    exact List.mem_cons_self

end WattPost.SignedAudit
