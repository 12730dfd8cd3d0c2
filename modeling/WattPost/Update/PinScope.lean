import WattPost.Update.References

/-! What pinning a tag is for: of the whole compose file only the image of the service changes,
and of that image only the tag. The updater gets there when the line that it finds is the one it
looks for, in a form that it can cut. -/
namespace WattPost.Update

open BlockYaml FileProgram PyLines

/-! ### The promise -/

def parsed (text : String) : Option (List Node) := document (readlines text.toList)

/-- Wherever an image is named, it is named by a reference. -/
def ImagesNamed (doc : List Node) : Prop :=
  ∀ node ∈ doc, node.path.getLast? = some (.key "image".toList) →
    ∃ v, node.value = some v ∧ IsReference v

/-- `services.<name>.image`. -/
def ownImage (u : Updater) : List Step :=
  [.key "services".toList, .key u.serviceName, .key "image".toList]

/-- The documents are the same but for the tag of the service's image. -/
def Retagged (u : Updater) (version : List Char) (doc doc' : List Node) : Prop :=
  ∃ before v behind, doc = before ++ { path := ownImage u, value := some v } :: behind ∧
    doc' = before ++ { path := ownImage u, value := some (retag version v) } :: behind

/-- Pinning changes the tag of the service's image, or nothing; a second time it changes nothing
more. -/
structure PinsOnly (u : Updater) (faults : Faults) (version : String)
    (files : Files String String) (doc : List Node) : Prop where
  answers : ∃ ok message after, pinTagInCompose u faults version files = (.ok (ok, message), after)
  pinned : ∀ message after, pinTagInCompose u faults version files = (.ok (true, message), after) →
    ∃ text doc', after = Function.update files u.composeFile (some text) ∧
      parsed text = some doc' ∧ Retagged u version.toList doc doc'
  unchanged : ∀ message after,
    pinTagInCompose u faults version files = (.ok (false, message), after) → after = files
  twice : ∀ ok message after, pinTagInCompose u faults version files = (.ok (ok, message), after) →
    ∃ message', pinTagInCompose u faults version after = (.ok (ok, message'), after)

/-! ### When it is kept -/

/-- The line is the image of the service, and its reference is cut where its tag begins. -/
structure OwnLine (u : Updater) (version : List Char) (above : List (List Char))
    (ln ref : List Char) : Prop where
  own : keyPath above (indentOf ln) "image".toList = ownImage u
  unquoted : ∀ q rest, ref = q :: rest → isQuote q = false
  tagged : ¬ PortOnly ref
  oneLine : '\n' ∉ version

def AlreadyOn (u : Updater) (version : List Char) (doc : List Node) : Prop :=
  ∃ v, { path := ownImage u, value := some v } ∈ doc ∧ retag version v = v

/-- The line that is found is the service's own, and the file is written at once or not at all. -/
def Pinnable (u : Updater) (faults : Faults) (version text : String) (doc : List Node) : Prop :=
  versionMatches version.toList = true → ¬ faults.read.Fails →
    ∀ above ln below m, readlines text.toList = above ++ ln :: below → Finds u none above ln m →
      if newRef version.toList m.ref = m.ref then AlreadyOn u version.toList doc
      else
        match faults.write with
        | .none => OwnLine u version.toList above ln m.ref
        | .failed none => True
        | .failed (some leftover) => leftover = text

/-! ### Runs -/

section Run

variable {u : Updater} {faults : Faults} {version text : String} {files : Files String String}

theorem run_refused (u : Updater) (files : Files String String)
    (h : versionMatches version.toList = false ∨ faults.read.Fails) :
    ∃ message, pinTagInCompose u faults version files = (.ok (false, message), files) := by
  cases hVersion : versionMatches version.toList with
  | false =>
      rw [pinTagInCompose, if_neg (by simp [hVersion])]
      exact ⟨_, rfl⟩
  | true =>
      rw [hVersion] at h
      have hFails : faults.read.Fails := h.resolve_left (by simp)
      have hRead : readCompose u faults.read files = (.ok (.error "OSError"), files) := by
        cases hFault : faults.read with
        | none =>
            rw [hFault] at hFails
            cases hFails
        | failed leftover => rfl
      rw [pinTagInCompose, if_pos hVersion, bind_of_ok hRead]
      exact ⟨_, rfl⟩

theorem run_lines (hVersion : versionMatches version.toList = true) (hRead : ¬ faults.read.Fails)
    (hFile : files u.composeFile = some text) :
    pinTagInCompose u faults version files =
      (match pinLines u version.toList none (readlines text.toList) with
        | .missing =>
            pure (false, "no image: line found under service " ++
              u.repr (String.ofList u.serviceName))
        | .noop => pure (true, "no-op")
        | .rewrote lines => do
            match ← writeCompose u faults.write lines with
            | some e => pure (false, "can't write " ++ u.composeFile ++ ": " ++ e)
            | none => pure (true, "ok") : FileM String String (Bool × String)) files := by
  have hLines : readCompose u faults.read files =
      (.ok (.ok (readlines text.toList)), files) := by
    cases hFault : faults.read with
    | none =>
        have hAttempt : attempt Fault.none files = (.ok (), files) := rfl
        have hContent : read u.composeFile files = (.ok (some text), files) := by
          rw [FileProgram.read, hFile]
        apply handle_of_ok
        rw [bind_of_ok hAttempt, bind_of_ok hContent]
        rfl
    | failed leftover =>
        rw [hFault] at hRead
        exact absurd trivial hRead
  rw [pinTagInCompose, if_pos hVersion]
  exact bind_of_ok hLines _

theorem pinsOnly_of_unchanged {doc : List Node} {message : String}
    (h : pinTagInCompose u faults version files = (.ok (false, message), files)) :
    PinsOnly u faults version files doc where
  answers := ⟨false, message, files, h⟩
  pinned := by
    intro message' after hRun
    rw [h] at hRun
    cases hRun
  unchanged := by
    intro message' after hRun
    rw [h] at hRun
    cases hRun
    rfl
  twice := by
    intro ok message' after hRun
    rw [h] at hRun
    cases hRun
    exact ⟨message, h⟩

/-- A run that answers `ok` keeps the promise when it leaves the right file and is then done. -/
theorem pinsOnly_of_ok {doc : List Node} {message message' text' : String}
    (h : pinTagInCompose u faults version files =
      (.ok (true, message), Function.update files u.composeFile (some text')))
    (hDoc : ∃ doc', parsed text' = some doc' ∧ Retagged u version.toList doc doc')
    (hAgain : pinTagInCompose u faults version (Function.update files u.composeFile (some text')) =
      (.ok (true, message'), Function.update files u.composeFile (some text'))) :
    PinsOnly u faults version files doc where
  answers := ⟨true, message, _, h⟩
  pinned := by
    intro other after hRun
    rw [h] at hRun
    cases hRun
    obtain ⟨doc', hParsed, hRetagged⟩ := hDoc
    exact ⟨text', doc', rfl, hParsed, hRetagged⟩
  unchanged := by
    intro other after hRun
    rw [h] at hRun
    cases hRun
  twice := by
    intro ok other after hRun
    rw [h] at hRun
    cases hRun
    exact ⟨message', hAgain⟩

theorem update_content_inj {text' : String}
    (h : Function.update files u.composeFile (some text) =
      Function.update files u.composeFile (some text')) : text = text' := by
  have hContent := congrFun h u.composeFile
  rw [Function.update_self, Function.update_self] at hContent
  exact Option.some.inj hContent

theorem update_content_self (hFile : files u.composeFile = some text) :
    Function.update files u.composeFile (some text) = files := by
  rw [← hFile, Function.update_eq_self]

end Run

/-! ### Documents that differ in one node -/

theorem retagged_self_iff {u : Updater} {version : List Char} {doc : List Node} :
    Retagged u version doc doc ↔ AlreadyOn u version doc := by
  constructor
  · rintro ⟨before, v, behind, hOld, hNew⟩
    rw [hOld] at hNew
    have hSame := (List.cons.inj (List.append_cancel_left hNew)).1
    have hValue : v = retag version v := by
      simpa using hSame
    refine ⟨v, ?_, hValue.symm⟩
    rw [hOld]
    simp
  · rintro ⟨v, hMem, hValue⟩
    obtain ⟨before, behind, hDoc⟩ := List.append_of_mem hMem
    exact ⟨before, v, behind, hDoc, by rw [hValue]; exact hDoc⟩

/-- Where two documents differ in a value, that is the image of the service. -/
theorem retagged_at {u : Updater} {version : List Char} {before behind : List Node}
    {path : List Step} {v v' : Option (List Char)}
    (h : Retagged u version (before ++ { path := path, value := v } :: behind)
      (before ++ { path := path, value := v' } :: behind)) :
    v' = v ∨ (path = ownImage u ∧ ∃ x, v = some x ∧ v' = some (retag version x)) := by
  obtain ⟨before', x, behind', hOld, hNew⟩ := h
  induction before generalizing before' with
  | nil =>
      cases before' with
      | nil =>
          obtain ⟨hNode, -⟩ := List.cons.inj hOld
          obtain ⟨hNode', -⟩ := List.cons.inj hNew
          cases hNode
          cases hNode'
          exact Or.inr ⟨rfl, x, rfl, rfl⟩
      | cons node before' =>
          obtain ⟨hNode, -⟩ := List.cons.inj hOld
          obtain ⟨hNode', -⟩ := List.cons.inj hNew
          rw [← hNode] at hNode'
          left
          simpa using hNode'
  | cons node before ih =>
      cases before' with
      | nil =>
          obtain ⟨hNode, hRest⟩ := List.cons.inj hOld
          obtain ⟨hNode', hRest'⟩ := List.cons.inj hNew
          left
          rw [← hRest'] at hRest
          have hSame := (List.cons.inj (List.append_cancel_left hRest)).1
          simpa using hSame.symm
      | cons node' before' =>
          obtain ⟨-, hRest⟩ := List.cons.inj hOld
          obtain ⟨-, hRest'⟩ := List.cons.inj hNew
          exact ih before' hRest hRest'

/-! ### The line that is found -/

section Found

variable {u : Updater} {faults : Faults} {version text : String} {files : Files String String}
variable {doc : List Node} {above below : List (List Char)} {ln : List Char} {m : ImageLine}

/-- The line is an image of the document, whose other nodes do not depend on it. -/
theorem found_line (hDoc : parsed text = some doc) (hImages : ImagesNamed doc)
    (hLines : readlines text.toList = above ++ ln :: below) (hMatch : matchImage ln = some m) :
    ∃ col gap v behind feed, IsImageLine ln m col gap v behind feed ∧
      ∃ before after, doc = before ++
          { path := keyPath above col "image".toList, value := some v } :: after ∧
        ∀ line',
          (∀ value', readLine line' = some [(col, .key "image".toList value')] →
            document (above ++ line' :: below) = some (before ++
              { path := keyPath above col "image".toList, value := value' } :: after)) ∧
          (readLine line' = none → document (above ++ line' :: below) = none) := by
  have hIsLines : IsLines (above ++ ln :: below) := hLines ▸ isLines_splitKeep _
  obtain ⟨body, hBody, hFeed⟩ := hIsLines.line
  obtain ⟨feed, hIsFeed, rfl⟩ : ∃ feed, IsFeed feed ∧ ln = body ++ feed := by
    rcases hFeed with rfl | rfl
    · exact ⟨['\n'], Or.inr rfl, rfl⟩
    · exact ⟨[], Or.inl rfl, (List.append_nil _).symm⟩
  rw [parsed, hLines] at hDoc
  obtain ⟨marks, hMarks, -⟩ := Option.map_eq_some_iff.mp hDoc
  obtain ⟨-, ms, -, -, hRead, -, -⟩ := mapM_split hMarks
  have hValue : ∀ col value, ms = [(col, .key "image".toList value)] →
      ∃ v, value = some v ∧ IsReference v := by
    rintro col value rfl
    obtain ⟨before, after, rfl, -⟩ := document_key hDoc hRead
    have hLast : (keyPath above col "image".toList).getLast? = some (.key "image".toList) :=
      List.getLast?_concat
    exact hImages { path := keyPath above col "image".toList, value := value } (by simp) hLast
  obtain ⟨col, gap, v, behind, rfl, hImage⟩ :=
    isImageLine_of_match hBody hIsFeed hMatch hRead hValue
  exact ⟨col, gap, v, behind, feed, hImage, document_key hDoc hRead⟩

theorem imageLine_feed (col gap : Nat) (ref behind feed : List Char) :
    imageLine col gap ref behind feed = imageHead col gap ++ (ref ++ behind) ++ feed := by
  simp only [imageLine, List.append_assoc]

section Rewritten

variable {col gap : Nat} {v behind feed : List Char}

/-- The file is read back line by line after it was rewritten. -/
theorem readlines_rewritten (hLines : readlines text.toList = above ++ ln :: below)
    (hImage : IsImageLine ln m col gap v behind feed) {tag : List Char} (hTag : IsTag tag) :
    readlines (above ++ imageLine col gap (newRef tag m.ref) behind ['\n'] :: below).flatten =
      above ++ imageLine col gap (newRef tag m.ref) behind ['\n'] :: below := by
  have hToken := isToken_newRef hTag (hImage.written.isToken hImage.isReference)
  have hIsLines : IsLines (above ++ ln :: below) := hLines ▸ isLines_splitKeep _
  have hReturn : '\r' ∉ (above ++ ln :: below).flatten := by
    rw [← hLines, readlines, flatten_splitKeep]
    exact return_notMem_universalNewlines _
  have hBody : '\n' ∉ imageHead col gap ++ (newRef tag m.ref ++ behind) := by
    rw [List.mem_append, List.mem_append, not_or, not_or]
    exact ⟨feed_notMem_imageHead col gap, feed_notMem_of_noSpace hToken.noSpace,
      hImage.behindFeed⟩
  have hNewReturn : '\r' ∉ newRef tag m.ref := fun hMem =>
    absurd (hToken.noSpace _ hMem) (by decide)
  rw [imageLine_feed]
  apply readlines_flatten (hIsLines.replace hBody)
  rw [hImage.line, imageLine_feed] at hReturn
  simp only [List.flatten_append, List.flatten_cons, List.mem_append, not_or] at hReturn ⊢
  obtain ⟨hAbove, ⟨⟨hHead, -, hBehind⟩, -⟩, hBelow⟩ := hReturn
  exact ⟨hAbove, ⟨⟨hHead, hNewReturn, hBehind⟩, by decide⟩, hBelow⟩

theorem rewrite_eq (hImage : IsImageLine ln m col gap v behind feed)
    (hMatch : matchImage ln = some m) (version : List Char) :
    m.rewrite version = imageLine col gap (newRef version m.ref) behind ['\n'] := by
  obtain ⟨m', hSame, hRef, hRewrite⟩ := matchImage_imageLine gap hImage.indented
    (hImage.written.isToken hImage.isReference) hImage.ends hImage.behindFeed hImage.isFeed
  rw [← hImage.line, hMatch] at hSame
  obtain rfl := Option.some.inj hSame
  exact hRewrite version

/-- The tag of a plain reference is read as it was written. -/
theorem readLine_rewritten {tag : List Char} (hTag : IsTag tag) (hv : IsReference v)
    (hEnds : endsLine behind = true) (hBehind : '\n' ∉ behind) :
    readLine (imageLine col gap (newRef tag v) behind ['\n']) =
      some [(col, .key "image".toList (some (newRef tag v)))] := by
  have hNew := isReference_newRef hTag hv
  rw [readLine_imageLine col gap hNew.isToken hBehind (Or.inr rfl),
    readScalar_word hNew.isWord hEnds]
  rfl

/-- What the rewritten file must look like. -/
theorem ownLine_of_retagged (hDoc : parsed text = some doc) (hImages : ImagesNamed doc)
    (hLines : readlines text.toList = above ++ ln :: below) (hMatch : matchImage ln = some m)
    (hVersion : versionMatches version.toList = true)
    (hNew : newRef version.toList m.ref ≠ m.ref) {doc' : List Node}
    (hDoc' : parsed (String.ofList (above ++ m.rewrite version.toList :: below).flatten) =
      some doc')
    (hRetagged : Retagged u version.toList doc doc') :
    OwnLine u version.toList above ln m.ref := by
  obtain ⟨col, gap, v, behind, feed, hImage, before, after, rfl, hOther⟩ :=
    found_line hDoc hImages hLines hMatch
  obtain ⟨hSome, hNone⟩ := hOther (imageLine col gap (newRef version.toList m.ref) behind ['\n'])
  rw [parsed, String.toList_ofList, rewrite_eq hImage hMatch] at hDoc'
  have hFeed : '\n' ∉ version.toList := by
    intro hMem
    obtain ⟨_, w, _, -, rfl⟩ := hRetagged
    refine feed_notMem_document hDoc' (List.mem_append_right _ List.mem_cons_self) rfl ?_
    exact List.mem_append_right _ (List.mem_cons_of_mem _ hMem)
  have hTag : IsTag version.toList := by
    obtain ⟨tag, hTag, hEq | hEq⟩ := isTag_of_versionMatches hVersion
    · exact hEq ▸ hTag
    · exact absurd (by rw [hEq]; simp) hFeed
  rw [readlines_rewritten hLines hImage hTag] at hDoc'
  have hToken := isToken_newRef hTag (hImage.written.isToken hImage.isReference)
  have hHash : '#' ∉ v := notMem_of_range hImage.isReference.chars (by decide)
  rcases hImage.written.eq_or with hPlain | ⟨q, hQuote, hQuoted⟩
  · rw [hPlain] at hNew hDoc' hSome ⊢
    rw [hSome _ (readLine_rewritten hTag hImage.isReference hImage.ends hImage.behindFeed)] at hDoc'
    obtain rfl := Option.some.inj hDoc'
    rcases retagged_at hRetagged with hSame | ⟨hOwn, x, hx, hValue⟩
    · exact absurd (Option.some.inj hSame) hNew
    · obtain rfl := Option.some.inj hx
      obtain ⟨c, rest, hStart, hUnquoted, -⟩ := hImage.isReference.isWord.start
      refine ⟨?_, fun q more hEq => ?_, ?_, hFeed⟩
      · rw [hImage.line, indentOf_imageLine]
        exact hOwn
      · rw [hStart] at hEq
        exact (List.cons.inj hEq).1 ▸ hUnquoted
      · exact (newRef_eq_retag_iff _ _).mp (Option.some.inj hValue)
  · have hRead := readLine_imageLine col gap hToken hImage.behindFeed (Or.inr rfl)
    cases hScalar : readScalar (newRef version.toList m.ref ++ behind) with
    | none =>
        rw [hScalar] at hRead
        rw [hNone hRead] at hDoc'
        cases hDoc'
    | some x =>
        rw [hScalar] at hRead
        rw [hSome _ hRead] at hDoc'
        obtain rfl := Option.some.inj hDoc'
        rw [hQuoted] at hScalar
        have hComment := hash_of_quoted hTag hImage.isReference hQuote hImage.ends hScalar
        rcases retagged_at hRetagged with hSame | ⟨-, w, hw, hValue⟩
        · rw [Option.some.inj hSame] at hComment
          exact absurd hComment hHash
        · obtain rfl := Option.some.inj hw
          rw [Option.some.inj hValue, retag, List.mem_append, List.mem_cons] at hComment
          rcases hComment with hMem | hMem | hMem
          · exact absurd (repository_subset v hMem) hHash
          · exact absurd hMem (by decide)
          · exact absurd hMem (hTag.notMem (Or.inl (by decide)))

/-- Then the rest of the file is as it was, and there is nothing more to do. -/
theorem pinned_of_ownLine (hDoc : parsed text = some doc) (hImages : ImagesNamed doc)
    (hLines : readlines text.toList = above ++ ln :: below) (hFinds : Finds u none above ln m)
    (hVersion : versionMatches version.toList = true)
    (hOwn : OwnLine u version.toList above ln m.ref) :
    let lines := above ++ m.rewrite version.toList :: below
    (∃ doc', parsed (String.ofList lines.flatten) = some doc' ∧
        Retagged u version.toList doc doc') ∧
      readlines lines.flatten = lines ∧
      pinLines u version.toList none lines = .noop := by
  obtain ⟨col, gap, v, behind, feed, hImage, before, after, rfl, hOther⟩ :=
    found_line hDoc hImages hLines hFinds.image
  have hTag : IsTag version.toList := by
    obtain ⟨tag, hTag, hEq | hEq⟩ := isTag_of_versionMatches hVersion
    · exact hEq ▸ hTag
    · exact absurd (by rw [hEq]; simp) hOwn.oneLine
  have hPlain : m.ref = v := by
    rcases hImage.written.eq_or with hPlain | ⟨q, hQuote, hQuoted⟩
    · exact hPlain
    · rw [hOwn.unquoted q _ hQuoted] at hQuote
      cases hQuote
  have hPath : keyPath above col "image".toList = ownImage u := by
    have hOwnPath := hOwn.own
    rwa [hImage.line, indentOf_imageLine] at hOwnPath
  have hRewrite := rewrite_eq hImage hFinds.image version.toList
  have hBack := readlines_rewritten hLines hImage hTag
  have hNewToken := (isReference_newRef hTag hImage.isReference).isToken
  dsimp only
  rw [hRewrite]
  refine ⟨?_, hBack, ?_⟩
  · obtain ⟨hSome, -⟩ := hOther (imageLine col gap (newRef version.toList v) behind ['\n'])
    refine ⟨_, ?_, before, v, after, by rw [hPath], rfl⟩
    rw [parsed, String.toList_ofList, hBack, hPlain,
      hSome _ (readLine_rewritten hTag hImage.isReference hImage.ends hImage.behindFeed), hPath,
      (newRef_eq_retag_iff _ _).mpr (hPlain ▸ hOwn.tagged)]
  · obtain ⟨m', hMatch', hRef', -⟩ := matchImage_imageLine gap hImage.indented
      hNewToken hImage.ends hImage.behindFeed (Or.inr rfl)
    have hFinds' : Finds u none above
        (imageLine col gap (newRef version.toList m.ref) behind ['\n']) m' := by
      obtain ⟨k, hInside, hGoesOn⟩ := hFinds.inside
      rw [hPlain]
      refine ⟨isHeader_imageLine ?_ hNewToken, ⟨k, hInside, ?_⟩, hMatch', hFinds.first⟩
      · exact fun hMem => (tagChar_range (u.named _ hMem)).2.2.1 rfl
      · have hLine : ln = imageLine col gap v behind feed := hPlain ▸ hImage.line
        rw [hLine] at hGoesOn
        exact bails_rewritten hImage.isReference.isToken hNewToken hImage.behindFeed
          hImage.isFeed (newRef_last hTag v) hGoesOn
    rw [hFinds'.pinLines, hRef', newRef_newRef hTag, if_pos rfl]

end Rewritten

/-! ### Exactly when -/

/-- Where the reference is the wanted one already, nothing is written. -/
theorem pinsOnly_same_iff (hFile : files u.composeFile = some text) (hDoc : parsed text = some doc)
    (hVersion : versionMatches version.toList = true) (hRead : ¬ faults.read.Fails)
    (hLines : readlines text.toList = above ++ ln :: below) (hFinds : Finds u none above ln m)
    (hSame : newRef version.toList m.ref = m.ref) :
    PinsOnly u faults version files doc ↔ AlreadyOn u version.toList doc := by
  have hRun := run_lines hVersion hRead hFile
  rw [hLines, hFinds.pinLines, if_pos hSame] at hRun
  rw [← retagged_self_iff]
  constructor
  · intro h
    obtain ⟨text', doc', hAfter, hParsed, hRetagged⟩ := h.pinned _ _ hRun
    have hContent := congrFun hAfter u.composeFile
    rw [hFile, Function.update_self] at hContent
    obtain rfl := Option.some.inj hContent
    obtain rfl := Option.some.inj (hParsed.symm.trans hDoc)
    exact hRetagged
  · intro h
    have hAgain : pinTagInCompose u faults version
        (Function.update files u.composeFile (some text)) =
          (.ok (true, "no-op"), Function.update files u.composeFile (some text)) := by
      rw [update_content_self hFile]
      exact hRun
    exact pinsOnly_of_ok (by rw [update_content_self hFile]; exact hRun) ⟨doc, hDoc, h⟩ hAgain

/-- The file is written with its one line changed. -/
theorem pinsOnly_written_iff (hFile : files u.composeFile = some text)
    (hDoc : parsed text = some doc) (hImages : ImagesNamed doc)
    (hVersion : versionMatches version.toList = true) (hRead : ¬ faults.read.Fails)
    (hLines : readlines text.toList = above ++ ln :: below) (hFinds : Finds u none above ln m)
    (hNew : newRef version.toList m.ref ≠ m.ref) (hWrite : faults.write = .none) :
    PinsOnly u faults version files doc ↔ OwnLine u version.toList above ln m.ref := by
  have hWritten : writeCompose u faults.write (above ++ m.rewrite version.toList :: below)
      files = (.ok none, Function.update files u.composeFile
        (some (String.ofList (above ++ m.rewrite version.toList :: below).flatten))) := by
    rw [hWrite]
    rfl
  have hLooks := run_lines hVersion hRead hFile
  rw [hLines, hFinds.pinLines, if_neg hNew] at hLooks
  have hRun := hLooks.trans (bind_of_ok hWritten _)
  constructor
  · intro h
    obtain ⟨text', doc', hAfter, hParsed, hRetagged⟩ := h.pinned _ _ hRun
    obtain rfl := update_content_inj hAfter
    exact ownLine_of_retagged hDoc hImages hLines hFinds.image hVersion hNew hParsed hRetagged
  · intro hOwn
    obtain ⟨hDoc', hBack, hDone⟩ := pinned_of_ownLine hDoc hImages hLines hFinds hVersion hOwn
    have hAgain := run_lines hVersion hRead (Function.update_self u.composeFile
      (some (String.ofList (above ++ m.rewrite version.toList :: below).flatten)) files)
    rw [String.toList_ofList, hBack, hDone] at hAgain
    exact pinsOnly_of_ok hRun hDoc' hAgain

/-- A write that fails is answered as a failure, whatever it leaves. -/
theorem run_write_failed (hFile : files u.composeFile = some text)
    (hVersion : versionMatches version.toList = true) (hRead : ¬ faults.read.Fails)
    (hLines : readlines text.toList = above ++ ln :: below) (hFinds : Finds u none above ln m)
    (hNew : newRef version.toList m.ref ≠ m.ref) {leftover : Option String}
    (hWrite : faults.write = .failed leftover) :
    ∃ message, pinTagInCompose u faults version files = (.ok (false, message),
      leftover.elim files fun left => Function.update files u.composeFile (some left)) := by
  have hFailed : writeCompose u faults.write (above ++ m.rewrite version.toList :: below) files =
      (.ok (some "OSError"),
        leftover.elim files fun left => Function.update files u.composeFile (some left)) := by
    rw [hWrite]
    cases leftover with
    | none => rfl
    | some left => rfl
  have hLooks := run_lines hVersion hRead hFile
  rw [hLines, hFinds.pinLines, if_neg hNew] at hLooks
  exact ⟨_, hLooks.trans (bind_of_ok hFailed _)⟩

theorem pinsOnly_iff_of_finds (hFile : files u.composeFile = some text)
    (hDoc : parsed text = some doc) (hImages : ImagesNamed doc)
    (hVersion : versionMatches version.toList = true) (hRead : ¬ faults.read.Fails)
    (hLines : readlines text.toList = above ++ ln :: below) (hFinds : Finds u none above ln m) :
    PinsOnly u faults version files doc ↔
      if newRef version.toList m.ref = m.ref then AlreadyOn u version.toList doc
      else
        match faults.write with
        | .none => OwnLine u version.toList above ln m.ref
        | .failed none => True
        | .failed (some leftover) => leftover = text := by
  split_ifs with hSame
  · exact pinsOnly_same_iff hFile hDoc hVersion hRead hLines hFinds hSame
  · cases hWrite : faults.write with
    | none =>
        exact pinsOnly_written_iff hFile hDoc hImages hVersion hRead hLines hFinds hSame hWrite
    | failed leftover =>
        obtain ⟨message, hRun⟩ :=
          run_write_failed hFile hVersion hRead hLines hFinds hSame hWrite
        cases leftover with
        | none => exact ⟨fun _ => trivial, fun _ => pinsOnly_of_unchanged hRun⟩
        | some leftover =>
            constructor
            · intro h
              have hContent := congrFun (h.unchanged _ _ hRun) u.composeFile
              rw [Option.elim_some, Function.update_self, hFile] at hContent
              exact Option.some.inj hContent
            · rintro rfl
              rw [Option.elim_some, update_content_self hFile] at hRun
              exact pinsOnly_of_unchanged hRun

/-- Pinning keeps its promise for exactly the files in which the line it finds is the service's
own image, unquoted and without a bare port, and which are written at once or not at all. -/
theorem pinsOnly_iff_pinnable (u : Updater) (faults : Faults) (version text : String)
    (files : Files String String) (doc : List Node) (hFile : files u.composeFile = some text)
    (hDoc : parsed text = some doc) (hImages : ImagesNamed doc) :
    PinsOnly u faults version files doc ↔ Pinnable u faults version text doc := by
  constructor
  · intro h hVersion hRead above ln below m hLines hFinds
    exact (pinsOnly_iff_of_finds hFile hDoc hImages hVersion hRead hLines hFinds).mp h
  · intro h
    by_cases hRefused : versionMatches version.toList = false ∨ faults.read.Fails
    · obtain ⟨message, hRun⟩ := run_refused u files hRefused
      exact pinsOnly_of_unchanged hRun
    · rw [not_or, Bool.not_eq_false] at hRefused
      obtain ⟨hVersion, hRead⟩ := hRefused
      rcases finds_or_missing u version.toList none (readlines text.toList) with
        hMissing | ⟨above, ln, below, m, hLines, hFinds⟩
      · have hRun := run_lines hVersion hRead hFile
        rw [hMissing] at hRun
        exact pinsOnly_of_unchanged hRun
      · exact (pinsOnly_iff_of_finds hFile hDoc hImages hVersion hRead hLines hFinds).mpr
          (h hVersion hRead above ln below m hLines hFinds)

end Found

/-! ### Three compose files -/

def shedUpdater : Updater where
  serviceName := "wattpost".toList
  composeFile := "docker-compose.yml"
  named := List.all_eq_true.mp (by decide)
  repr := id

def noFaults : Faults where
  read := .none
  write := .none

def composeFiles (text : String) : Files String String :=
  Function.update (fun _ => none) "docker-compose.yml" (some text)

/-- Two services with an image each. -/
def plainCompose : String :=
  "services:\n  web:\n    image: web:2.0\n  wattpost:\n    image: app:1.0\n"

def plainDoc : List Node :=
  [{ path := [.key "services".toList], value := none },
   { path := [.key "services".toList, .key "web".toList], value := none },
   { path := [.key "services".toList, .key "web".toList, .key "image".toList],
     value := some "web:2.0".toList },
   { path := [.key "services".toList, .key "wattpost".toList], value := none },
   { path := ownImage shedUpdater, value := some "app:1.0".toList }]

theorem readlines_plainCompose : readlines plainCompose.toList =
    ["services:\n".toList, "  web:\n".toList, "    image: web:2.0\n".toList,
      "  wattpost:\n".toList, "    image: app:1.0\n".toList] := by decide

theorem parsed_plainCompose : parsed plainCompose = some plainDoc := by decide +kernel

theorem imagesNamed_plainDoc : ImagesNamed plainDoc := by
  intro node hNode hLast
  simp only [plainDoc, List.mem_cons, List.not_mem_nil, or_false] at hNode
  rcases hNode with rfl | rfl | rfl | rfl | rfl
  · exact absurd hLast (by decide)
  · exact absurd hLast (by decide)
  · exact ⟨_, rfl, List.all_eq_true.mp (by decide), 'w', "eb:2.0".toList, rfl, by decide⟩
  · exact absurd hLast (by decide)
  · exact ⟨_, rfl, List.all_eq_true.mp (by decide), 'a', "pp:1.0".toList, rfl, by decide⟩

/-- The only line that the loop can find in the plain file is its last one: the other image
stands before the header. -/
theorem pinnable_plainCompose :
    Pinnable shedUpdater noFaults "1.1" plainCompose plainDoc := by
  intro _ _ above ln below m hLines hFinds
  rw [readlines_plainCompose] at hLines
  obtain ⟨k, hInside, -⟩ := hFinds.inside
  match above, hLines with
  | [], hLines => cases hInside
  | [a], hLines =>
      simp only [List.cons_append, List.nil_append, List.cons.injEq] at hLines
      obtain ⟨rfl, rfl, -⟩ := hLines
      cases hInside
  | [a, b], hLines =>
      simp only [List.cons_append, List.nil_append, List.cons.injEq] at hLines
      obtain ⟨rfl, rfl, rfl, -⟩ := hLines
      cases hInside
  | [a, b, c], hLines =>
      simp only [List.cons_append, List.nil_append, List.cons.injEq] at hLines
      obtain ⟨-, -, -, rfl, -⟩ := hLines
      exact absurd hFinds.notHeader (by decide)
  | [a, b, c, d], hLines =>
      simp only [List.cons_append, List.nil_append, List.cons.injEq] at hLines
      obtain ⟨rfl, rfl, rfl, rfl, rfl, -⟩ := hLines
      have hMatch : matchImage "    image: app:1.0\n".toList =
          some { head := "    image: ".toList, ref := "app:1.0".toList, tail := ['\n'] } := rfl
      obtain rfl := Option.some.inj (hMatch.symm.trans hFinds.image)
      rw [if_neg (by decide)]
      refine ⟨by decide, ?_, ?_, by decide⟩
      · intro q rest hEq
        obtain rfl := (List.cons.inj hEq).1
        decide
      · exact (newRef_eq_retag_iff "1.1".toList _).mp (by decide)
  | a :: b :: c :: d :: e :: above, hLines => simp at hLines

theorem pinsOnly_plainCompose :
    Pinnable shedUpdater noFaults "1.1" plainCompose plainDoc ∧
      PinsOnly shedUpdater noFaults "1.1" (composeFiles plainCompose) plainDoc :=
  ⟨pinnable_plainCompose,
    (pinsOnly_iff_pinnable shedUpdater noFaults "1.1" plainCompose (composeFiles plainCompose)
      plainDoc (Function.update_self ..) parsed_plainCompose imagesNamed_plainDoc).mpr
      pinnable_plainCompose⟩

/-- A service that waits for the updater's own has the name of that service in a key. -/
def waitingCompose : String :=
  "services:\n  web:\n    depends_on:\n      wattpost:\n        condition: started\n" ++
    "    image: web:2.0\n  wattpost:\n    image: app:1.0\n"

def waitingDoc (web : String) : List Node :=
  [{ path := [.key "services".toList], value := none },
   { path := [.key "services".toList, .key "web".toList], value := none },
   { path := [.key "services".toList, .key "web".toList, .key "depends_on".toList],
     value := none },
   { path := [.key "services".toList, .key "web".toList, .key "depends_on".toList,
       .key "wattpost".toList],
     value := none },
   { path := [.key "services".toList, .key "web".toList, .key "depends_on".toList,
       .key "wattpost".toList, .key "condition".toList],
     value := some "started".toList },
   { path := [.key "services".toList, .key "web".toList, .key "image".toList],
     value := some web.toList },
   { path := [.key "services".toList, .key "wattpost".toList], value := none },
   { path := ownImage shedUpdater, value := some "app:1.0".toList }]

theorem imagesNamed_waitingDoc : ImagesNamed (waitingDoc "web:2.0") := by
  intro node hNode hLast
  simp only [waitingDoc, List.mem_cons, List.not_mem_nil, or_false] at hNode
  rcases hNode with rfl | rfl | rfl | rfl | rfl | rfl | rfl | rfl
  · exact absurd hLast (by decide)
  · exact absurd hLast (by decide)
  · exact absurd hLast (by decide)
  · exact absurd hLast (by decide)
  · exact absurd hLast (by decide)
  · exact ⟨_, rfl, List.all_eq_true.mp (by decide), 'w', "eb:2.0".toList, rfl, by decide⟩
  · exact absurd hLast (by decide)
  · exact ⟨_, rfl, List.all_eq_true.mp (by decide), 'a', "pp:1.0".toList, rfl, by decide⟩

theorem pinLines_waitingCompose :
    pinLines shedUpdater "1.1".toList none (readlines waitingCompose.toList) =
      .rewrote ["services:\n".toList, "  web:\n".toList, "    depends_on:\n".toList,
        "      wattpost:\n".toList, "        condition: started\n".toList,
        "    image: web:1.1\n".toList, "  wattpost:\n".toList, "    image: app:1.0\n".toList] := by
  decide +kernel

/-- The image of the service that waits gets the tag. -/
theorem waiting_image_pinned :
    composeFiles waitingCompose shedUpdater.composeFile = some waitingCompose ∧
      parsed waitingCompose = some (waitingDoc "web:2.0") ∧ ImagesNamed (waitingDoc "web:2.0") ∧
      versionMatches "1.1".toList = true ∧
      ¬ PinsOnly shedUpdater noFaults "1.1" (composeFiles waitingCompose)
        (waitingDoc "web:2.0") := by
  have hFile : composeFiles waitingCompose shedUpdater.composeFile = some waitingCompose :=
    Function.update_self ..
  have hRun := @run_lines shedUpdater noFaults "1.1" waitingCompose
    (composeFiles waitingCompose) (by decide) id hFile
  rw [pinLines_waitingCompose] at hRun
  refine ⟨hFile, by decide +kernel, imagesNamed_waitingDoc, by decide, fun h => ?_⟩
  obtain ⟨text, doc', hAfter, hParsed, hRetagged⟩ := h.pinned _ _ hRun
  obtain rfl := update_content_inj hAfter
  have hDoc' : parsed (String.ofList ["services:\n".toList, "  web:\n".toList,
      "    depends_on:\n".toList, "      wattpost:\n".toList, "        condition: started\n".toList,
      "    image: web:1.1\n".toList, "  wattpost:\n".toList,
      "    image: app:1.0\n".toList].flatten) = some (waitingDoc "web:1.1") := by
    decide +kernel
  obtain rfl := Option.some.inj (hDoc'.symm.trans hParsed)
  rcases @retagged_at shedUpdater "1.1".toList ((waitingDoc "").take 5) ((waitingDoc "").drop 6)
    [.key "services".toList, .key "web".toList, .key "image".toList] (some "web:2.0".toList)
    (some "web:1.1".toList) hRetagged with hSame | ⟨hOwn, -⟩
  · exact absurd hSame (by decide)
  · exact absurd hOwn (by decide)

end WattPost.Update
