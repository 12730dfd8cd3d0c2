import WattPost.Cloud.JsonPrefix
import WattPost.Lib.Confined
import WattPost.Net.Helperd

/-! Over the helper's socket a request arrives as it was sent, and its answer comes back, however
the two streams are cut into chunks. -/
namespace Helperd

open Process (Proc Exec Handler)
open LineStream (Incoming)
open WattPost.Cloud (Json Fields)
open WattPost.Cloud.ExtrasTrim (asciiChar asciiString)
open WattPost.Cloud.JsonText (Decoder dumps encode isPrintable isPrintable_encode loads_cut
  loads_dumps asciiChar_length encodeField encodeFields_eq)

/-! ### Bytes -/

theorem utf8_append (s t : String) : utf8 (s ++ t) = utf8 s ++ utf8 t := by
  rw [utf8, String.toList_append, List.flatMap_append]
  rfl

theorem decodeUtf8_utf8 (s : String) : decodeUtf8 (utf8 s) = some s := by
  have hBytes : (utf8 s).toByteArray = s.toByteArray := String.utf8Encode_toList
  rw [decodeUtf8, hBytes, String.fromUTF8?, dif_pos s.isValidUTF8]
  rfl

/-- A printable character is one byte. -/
theorem utf8_printable {s : String} (h : ∀ c ∈ s.toList, isPrintable c = true) :
    utf8 s = s.toList.map fun c => c.val.toUInt8 := by
  rw [utf8, ← List.flatMap_pure_eq_map]
  refine List.flatMap_congr fun c hc => String.utf8EncodeChar_eq_singleton ?_
  have hRange := h c hc
  rw [isPrintable, Bool.and_eq_true, decide_eq_true_eq, decide_eq_true_eq] at hRange
  rw [Char.utf8Size_eq_one_iff, UInt32.le_iff_toNat_le]
  exact hRange.2.trans (by decide)

theorem newline_notMem_utf8 {s : String} (h : ∀ c ∈ s.toList, isPrintable c = true) :
    newline ∉ utf8 s := by
  rw [utf8_printable h]
  intro hMem
  obtain ⟨c, hc, hByte⟩ := List.mem_map.mp hMem
  have hRange := h c hc
  rw [isPrintable, Bool.and_eq_true, decide_eq_true_eq, decide_eq_true_eq] at hRange
  have hNat := congrArg UInt8.toNat hByte
  have hVal : c.val.toNat = c.toNat := rfl
  have hTen : newline.toNat = 10 := rfl
  rw [UInt32.toNat_toUInt8, hVal, Nat.mod_eq_of_lt (by omega)] at hNat
  omega

theorem utf8_take {s : String} (h : ∀ c ∈ s.toList, isPrintable c = true) (n : Nat) :
    (utf8 s).take n = utf8 (String.ofList (s.toList.take n)) := by
  have hTake : ∀ c ∈ (String.ofList (s.toList.take n)).toList, isPrintable c = true := by
    rw [String.toList_ofList]
    exact fun c hc => h c (List.mem_of_mem_take hc)
  rw [utf8_printable h, utf8_printable hTake, String.toList_ofList, List.map_take]

section Lines

variable {d : Decoder} {j : Json}

theorem newline_notMem_dumps (h : d.Fits d.depth j) : newline ∉ utf8 (dumps j) := by
  refine newline_notMem_utf8 ?_
  rw [dumps, String.toList_ofList]
  exact isPrintable_encode h

theorem lineOf_eq (j : Json) : lineOf j = utf8 (dumps j) ++ [newline] := by
  rw [lineOf, utf8_append]
  rfl

theorem line_lineOf (h : d.Fits d.depth j) :
    LineStream.line newline (lineOf j) = utf8 (dumps j) := by
  rw [lineOf_eq, LineStream.line_mark newline (newline_notMem_dumps h)]

theorem newline_mem_lineOf (j : Json) : newline ∈ lineOf j := by
  rw [lineOf_eq]
  simp

theorem loadsBytes_dumps (h : d.Fits d.depth j) : loadsBytes d (utf8 (dumps j)) = some j := by
  rw [loadsBytes, decodeUtf8_utf8, Option.bind_some, loads_dumps h]

end Lines

/-! ### The two directions -/

/-- A request that is not too long is taken for what it is. -/
theorem serveOne_request {host : Host} {j : Json} (h : host.decoder.Fits host.decoder.depth j)
    (hShort : (utf8 (dumps j)).length ≤ maxRequest) {up : Incoming UInt8} (hChunks : [] ∉ up.chunks)
    (hSent : up.chunks.flatten = lineOf j) :
    serveOne host up =
      (Option.map fun answer => lineOf (answerJson answer)) <$> handleRequest host (some j) := by
  have hFull : decide (newline ∈ up.chunks.flatten ∨ maxRequest ≤ up.chunks.flatten.length) =
      true := by
    rw [hSent]
    exact decide_eq_true (Or.inl (newline_mem_lineOf j))
  obtain ⟨got, hGot, hLine⟩ :=
    (LineStream.enough_bounded newline maxRequest).receive hChunks (Or.inl hFull)
  rw [hSent, line_lineOf h, List.take_of_length_le hShort] at hLine
  rw [serveOne, hGot]
  dsimp only
  rw [hLine, handle, loadsBytes_dumps h]

/-- A request that is too long is cut off, and is no request at all then. -/
theorem serveOne_oversized {host : Host} {fields : Fields}
    (h : host.decoder.Fits host.decoder.depth (.obj fields))
    (hLong : maxRequest < (utf8 (dumps (.obj fields))).length) {up : Incoming UInt8}
    (hChunks : [] ∉ up.chunks) (hSent : up.chunks.flatten = lineOf (.obj fields)) :
    serveOne host up =
      .ret (some (lineOf (answerJson { ok := false, out := "", err := "malformed request" }))) := by
  have hFull : decide (newline ∈ up.chunks.flatten ∨ maxRequest ≤ up.chunks.flatten.length) =
      true := by
    rw [hSent]
    exact decide_eq_true (Or.inl (newline_mem_lineOf _))
  have hText : (dumps (.obj fields)).toList = encode (.obj fields) := String.toList_ofList
  have hPrints : ∀ c ∈ (dumps (.obj fields)).toList, isPrintable c = true := by
    rw [hText]
    exact isPrintable_encode h
  obtain ⟨got, hGot, hLine⟩ :=
    (LineStream.enough_bounded newline maxRequest).receive hChunks (Or.inl hFull)
  rw [hSent, line_lineOf h, utf8_take hPrints, hText] at hLine
  have hMore : (encode (.obj fields)).drop maxRequest ≠ [] := by
    rw [utf8_printable hPrints, List.length_map, hText] at hLong
    exact List.ne_nil_of_length_pos (by rw [List.length_drop]; omega)
  have hLoads : loadsBytes host.decoder
      (utf8 (String.ofList ((encode (.obj fields)).take maxRequest))) = none := by
    rw [loadsBytes, decodeUtf8_utf8, Option.bind_some,
      loads_cut h (List.take_append_drop _ _) hMore]
  rw [serveOne, hGot]
  dsimp only
  rw [hLine, handle, hLoads]
  rfl

/-- The client reads back what the helper sent. -/
theorem callResult_line {d : Decoder} {fields : Fields} (h : d.Fits d.depth (.obj fields))
    (errors : String) {down : Incoming UInt8} (hChunks : [] ∉ down.chunks)
    (hSent : down.chunks.flatten = lineOf (.obj fields)) :
    callResult d errors down = .obj fields := by
  have hFull : decide (newline ∈ down.chunks.flatten) = true := by
    rw [hSent]
    exact decide_eq_true (newline_mem_lineOf _)
  obtain ⟨got, hGot, hLine⟩ := (LineStream.enough_line newline).receive hChunks (Or.inl hFull)
  rw [hSent, line_lineOf h] at hLine
  rw [callResult, hGot]
  dsimp only
  rw [hLine, loadsBytes_dumps h]

theorem fits_answerJson {d : Decoder} (hDepth : 0 < d.depth) (a : WifiJoin.Answer) :
    d.Fits d.depth (answerJson a) := by
  obtain ⟨depth, hSucc⟩ := Nat.exists_eq_succ_of_ne_zero hDepth.ne'
  rw [hSucc]
  refine Decoder.Fits.obj fun field hField => ?_
  simp only [List.mem_cons, List.not_mem_nil, or_false] at hField
  rcases hField with rfl | rfl | rfl
  · exact .bool _ _
  · exact .str _ _
  · exact .str _ _

theorem handleRequest_call (host : Host) (action : String) (args : Fields) :
    handleRequest host (some (callRequest action args)) =
      some <$> perform host action (some (.obj args)) := rfl

/-- **The socket.** A call of at most 4096 bytes is performed as it was made, once, and the
caller gets the helper's answer to it, in whatever chunks the two lines arrive. -/
theorem call_answers {S : Type} {h : Handler Call Reply S} {host : Host} (client : Decoder)
    (hClient : 0 < client.depth) {action : String} {args : Fields}
    (hFits : host.decoder.Fits host.decoder.depth (callRequest action args))
    (hShort : (utf8 (dumps (callRequest action args))).length ≤ maxRequest)
    {up : Incoming UInt8} (hUp : [] ∉ up.chunks)
    (hSent : up.chunks.flatten = lineOf (callRequest action args)) {s s' : S}
    {response : Option (List UInt8)} :
    Exec h (serveOne host up) s s' (some response) ↔
      ∃ answer, Exec h (perform host action (some (.obj args))) s s' (some answer) ∧
        response = some (lineOf (answerJson answer)) ∧
        ∀ errors, ∀ down : Incoming UInt8, [] ∉ down.chunks →
          some down.chunks.flatten = response →
          callResult client errors down = answerJson answer := by
  rw [serveOne_request hFits hShort hUp hSent, handleRequest_call, Process.exec_map_iff]
  constructor
  · rintro ⟨found, hRun, rfl⟩
    obtain ⟨answer, hPerform, rfl⟩ := Process.exec_map_iff.mp hRun
    refine ⟨answer, hPerform, rfl, fun errors down hDown hReceived => ?_⟩
    exact callResult_line (fits_answerJson hClient answer) errors hDown (Option.some.inj hReceived)
  · rintro ⟨answer, hPerform, rfl, -⟩
    exact ⟨some answer, Process.exec_map_iff.mpr ⟨answer, hPerform, rfl⟩, rfl⟩

/-- The decoder as the interpreter has it from the start; `repr` of a float is left out. -/
def plainDecoder : Decoder where
  floatRepr := id
  maxDigits := 4300
  depth := 1000

def plainHost : Host where
  isAlnum := Char.isAlphanum
  addressError := fun s => "Expected 4 octets in '" ++ s ++ "'"
  fileId := id
  str := dumps
  repr := dumps
  truncate := fun _ => 0
  decoder := plainDecoder

theorem fits_call {action : String} {args : Fields}
    (h : ∀ arg ∈ args, plainDecoder.Fits 998 arg.2) :
    plainDecoder.Fits 1000 (callRequest action args) := by
  refine Decoder.Fits.obj fun field hField => ?_
  simp only [List.mem_cons, List.not_mem_nil, or_false] at hField
  rcases hField with rfl | rfl
  · exact .str _ _
  · exact .obj h

/-- A call that comes in two pieces. -/
def statusCall : Incoming UInt8 where
  chunks := [(lineOf (callRequest "netctl_status" [])).take 7,
    (lineOf (callRequest "netctl_status" [])).drop 7]
  closes := false

theorem statusCall_sent : statusCall.chunks.flatten = lineOf (callRequest "netctl_status" []) := by
  simp [statusCall]

theorem statusCall_chunks : [] ∉ statusCall.chunks := by decide +kernel

theorem perform_status : perform plainHost "netctl_status" (some (.obj [])) =
    rescue <$> actNetctlStatus := rfl

theorem call_answers_status :
    Exec (Process.Recorded fun _ _ => True) (serveOne plainHost statusCall) []
      [.run [netctl, "status"]]
      (some (some (lineOf (answerJson { ok := true, out := "up", err := "" })))) := by
  refine (call_answers plainDecoder (by decide) (fits_call fun _ h => by cases h)
    (by decide +kernel) statusCall_chunks statusCall_sent).mpr
    ⟨{ ok := true, out := "up", err := "" }, ?_, rfl, fun errors down hDown hReceived => ?_⟩
  · rw [perform_status, Process.exec_map_iff]
    refine ⟨.ok { ok := true, out := "up", err := "" }, ?_, rfl⟩
    exact Exec.eff (a := Except.ok ⟨0, "up\n", ""⟩) ⟨trivial, rfl⟩ (Exec.ret _ _)
  · exact callResult_line (fits_answerJson (by decide) _) errors hDown (Option.some.inj hReceived)

/-! ### Calls that are too long -/

def malformed : WifiJoin.Answer := { ok := false, out := "", err := "malformed request" }

/-- **The limit.** A call of more than 4096 bytes is cut off, in whatever chunks it comes. It
changes nothing, and the caller is told that it is malformed. -/
theorem long_call_refused {S : Type} {h : Handler Call Reply S} {host : Host} (client : Decoder)
    (hClient : 0 < client.depth) {action : String} {args : Fields}
    (hFits : host.decoder.Fits host.decoder.depth (callRequest action args))
    (hLong : maxRequest < (utf8 (dumps (callRequest action args))).length)
    {up : Incoming UInt8} (hUp : [] ∉ up.chunks)
    (hSent : up.chunks.flatten = lineOf (callRequest action args)) {s s' : S}
    {response : Option (List UInt8)} (hRun : Exec h (serveOne host up) s s' (some response)) :
    s' = s ∧ ∀ errors, ∀ down : Incoming UInt8, [] ∉ down.chunks →
      some down.chunks.flatten = response →
      callResult client errors down = answerJson malformed := by
  rw [serveOne_oversized hFits hLong hUp hSent] at hRun
  cases hRun
  refine ⟨rfl, fun errors down hDown hReceived => ?_⟩
  exact callResult_line (fits_answerJson hClient malformed) errors hDown
    (Option.some.inj hReceived)

/-- A call with an SSID that is too long. -/
def longArgs : Fields := [("ssid", .str (String.ofList (List.replicate 4097 'x')))]

def longCall : Incoming UInt8 where
  chunks := [lineOf (callRequest "wifi_join" longArgs)]
  closes := false

theorem longCall_sent : longCall.chunks.flatten = lineOf (callRequest "wifi_join" longArgs) :=
  List.append_nil _

theorem chunk_lineOf (j : Json) : [] ∉ [lineOf j] := by
  intro hNil
  have hMark := newline_mem_lineOf j
  rw [← List.mem_singleton.mp hNil] at hMark
  cases hMark

theorem longCall_chunks : [] ∉ longCall.chunks := chunk_lineOf _

theorem fits_longCall : plainDecoder.Fits 1000 (callRequest "wifi_join" longArgs) := by
  refine fits_call fun arg hArg => ?_
  obtain rfl := List.mem_singleton.mp hArg
  exact .str _ _

theorem length_encode_str (s : String) : s.length ≤ (encode (.str s)).length := by
  have hChars : ∀ cs : List Char, cs.length ≤ (cs.flatMap asciiChar).length := by
    intro cs
    induction cs with
    | nil => exact Nat.le_refl _
    | cons c cs ih =>
        have hChar := asciiChar_length c
        rw [List.flatMap_cons, List.length_append, List.length_cons]
        omega
  have hString := hChars s.toList
  rw [String.length_toList] at hString
  rw [encode, asciiString, List.length_append, List.length_cons]
  omega

theorem length_encode_last (fields : Fields) (name : String) (j : Json) :
    (encode j).length ≤ (encode (.obj (fields ++ [(name, j)]))).length := by
  rw [encode, encodeFields_eq, List.map_append]
  induction fields with
  | nil =>
      simp [encodeField]
      omega
  | cons field fields ih =>
      cases fields with
      | nil =>
          simp [encodeField]
          omega
      | cons next fields =>
          simp only [List.map_cons, List.cons_append, List.intersperse_cons_cons,
            List.flatten_cons, List.length_append, List.length_cons] at ih ⊢
          omega

theorem longCall_long : maxRequest < (utf8 (dumps (callRequest "wifi_join" longArgs))).length := by
  have hText : (dumps (callRequest "wifi_join" longArgs)).toList =
      encode (callRequest "wifi_join" longArgs) := String.toList_ofList
  have hPrints : ∀ c ∈ (dumps (callRequest "wifi_join" longArgs)).toList,
      isPrintable c = true := by
    rw [hText]
    exact isPrintable_encode fits_longCall
  have hName := length_encode_str (String.ofList (List.replicate 4097 'x'))
  have hArgs := length_encode_last [] "ssid" (.str (String.ofList (List.replicate 4097 'x')))
  have hCall := length_encode_last [("action", .str "wifi_join")] "args" (.obj longArgs)
  rw [String.length_ofList, List.length_replicate] at hName
  rw [utf8_printable hPrints, List.length_map, hText]
  exact (hName.trans hArgs).trans hCall

/-- The refusal comes back in one piece. -/
def malformedReply : Incoming UInt8 where
  chunks := [lineOf (answerJson malformed)]
  closes := true

theorem long_call_refused_ssid :
    callResult plainDecoder "" malformedReply = answerJson malformed := by
  have hRun : Exec (Process.Recorded fun _ _ => True) (serveOne plainHost longCall) [] []
      (some (some (lineOf (answerJson malformed)))) := by
    rw [serveOne_oversized fits_longCall longCall_long longCall_chunks longCall_sent]
    exact Exec.ret _ _
  exact (long_call_refused plainDecoder (by decide) fits_longCall longCall_long
    longCall_chunks longCall_sent hRun).2 "" malformedReply (chunk_lineOf _)
      (congrArg some (List.append_nil _))

end Helperd
