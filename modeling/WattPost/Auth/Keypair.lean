import Mathlib.Data.List.DropRight
import WattPost.Lib.FileProgram
import WattPost.Lib.Runs

/-! The appliance keypair on disk: the private key is sealed under a key that is derived
from an anchor, and the anchor is a file of its own. The library of the ciphers, the
machine-id and the random generator are parameters; the directory exists. -/
namespace WattPost.Auth.ApplianceKey

open FileProgram

abbrev Bytes := List UInt8

/-! ### White space -/

section Strip

variable {α : Type}

/-- Both ends without the items of a kind. -/
def stripBy (p : α → Bool) (xs : List α) : List α := (xs.dropWhile p).rdropWhile p

/-- `bytes.isspace`. -/
def isByteSpace (b : UInt8) : Bool := (0x09 ≤ b && b ≤ 0x0d) || b == 0x20

/-- `str.isspace` on ASCII. -/
def isTextSpace (b : UInt8) : Bool := (0x09 ≤ b && b ≤ 0x0d) || (0x1c ≤ b && b ≤ 0x20)

/-- `bytes.strip`. -/
def strip (bytes : Bytes) : Bytes := stripBy isByteSpace bytes

/-- Nothing is left to strip of a wider kind. -/
theorem stripBy_stripBy {p q : α → Bool} (h : ∀ x, p x = true → q x = true) (xs : List α) :
    stripBy p (stripBy q xs) = stripBy q xs := by
  have hFront : (stripBy q xs).dropWhile p = stripBy q xs := by
    rw [List.dropWhile_eq_self_iff]
    intro hLength hFirst
    have hPrefix : stripBy q xs <+: xs.dropWhile q := List.rdropWhile_prefix q _
    have hSame := hPrefix.getElem hLength
    have hNot := List.dropWhile_get_zero_not q xs (hLength.trans_le hPrefix.length_le)
    rw [List.get_eq_getElem, ← hSame] at hNot
    exact hNot (h _ hFirst)
  have hBack : (stripBy q xs).rdropWhile p = stripBy q xs := by
    rw [List.rdropWhile_eq_self_iff]
    intro hNonempty hLast
    exact List.rdropWhile_last_not q (xs.dropWhile q) hNonempty (h _ hLast)
  rw [stripBy, hFront, hBack]

theorem isTextSpace_of_isByteSpace (b : UInt8) (h : isByteSpace b = true) :
    isTextSpace b = true := by
  rw [isByteSpace, Bool.or_eq_true] at h
  rw [isTextSpace, Bool.or_eq_true]
  rcases h with hControl | hBlank
  · exact Or.inl hControl
  · rw [eq_of_beq hBlank]
    exact Or.inr (by decide)

theorem strip_stripText (bytes : Bytes) :
    strip (stripBy isTextSpace bytes) = stripBy isTextSpace bytes :=
  stripBy_stripBy isTextSpace_of_isByteSpace bytes

end Strip

/-! ### Parameters -/

/-- The cipher library: the key derivation, `SecretBox`, and ed25519. -/
structure Nacl (Key : Type) where
  deriveBoxKey : Bytes → Key
  encrypt : Key → Bytes → Bytes → Bytes
  decrypt : Key → Bytes → Bytes → Option Bytes
  verifyKey : Bytes → Bytes
  fingerprintOf : Bytes → String

/-- What the program relies on. A ciphertext holds the tag of 16 bytes. -/
structure Nacl.Lawful {Key : Type} (nacl : Nacl Key) : Prop where
  derive_injective : Function.Injective nacl.deriveBoxKey
  decrypt_encrypt : ∀ key nonce message, message.length = 32 →
    nacl.decrypt key nonce (nacl.encrypt key nonce message) = some message
  decrypt_other : ∀ key key' nonce ciphertext, (nacl.decrypt key nonce ciphertext).isSome = true →
    key' ≠ key → nacl.decrypt key' nonce ciphertext = none
  tag_le : ∀ key nonce message, 16 ≤ (nacl.encrypt key nonce message).length

/-- `secrets.token_bytes(n)`. -/
def Random (n : Nat) : Type := { bytes : Bytes // bytes.length = n }

inductive File where
  | machineAnchor
  | privateSealed
  | privateSealedTmp
  | publicRaw
deriving DecidableEq

/-- The operations of a call that can fail. -/
inductive Point where
  | writeAnchor
  | chmodAnchor
  | unlinkSealed
  | unlinkPublic
  | writeSealed
  | chmodSealed
  | replaceSealed
  | writePublic
  | chmodPublic
deriving DecidableEq

/-- What a call finds outside the directory: the two machine-id files, where they can be
read, the random numbers, and the operations that fail. -/
structure Env where
  machineId : Option Bytes
  dbusMachineId : Option Bytes
  anchorBytes : Random 32
  keySeed : Random 32
  nonce : Random 24
  faults : Point → Fault Bytes

structure Keypair where
  signingKey : Bytes
  verifyKey : Bytes
  fingerprint : String
deriving DecidableEq

abbrev KeyM (α : Type) := FileM File Bytes α

/-! ### The anchor -/

/-- `read_text(encoding="ascii")`: universal newlines, and no byte beyond ASCII. -/
def readText (bytes : Bytes) : Option Bytes :=
  if bytes.all (· < 0x80) then some (newlines bytes) else none
where
  newlines : Bytes → Bytes
    | 0x0d :: 0x0a :: rest => 0x0a :: newlines rest
    | 0x0d :: rest => 0x0a :: newlines rest
    | b :: rest => b :: newlines rest
    | [] => []

/-- The first machine-id that is long enough. -/
def machineSeed (env : Env) : Option Bytes :=
  [env.machineId, env.dbusMachineId].findSome? fun candidate => do
    let text ← candidate.bind readText
    let raw := stripBy isTextSpace text
    if 16 ≤ raw.length then some raw else none

/-- What a new anchor is made of. -/
def seed (env : Env) : Bytes := (machineSeed env).getD env.anchorBytes.1

/-- The persisted anchor, where it is valid. -/
def persisted (files : Files File Bytes) : Option Bytes := do
  let data ← (files .machineAnchor).map strip
  if 16 ≤ data.length then some data else none

/-- `_machine_anchor`. -/
def machineAnchor (env : Env) : KeyM Bytes := fun files =>
  match persisted files with
  | some data => (.ok data, files)
  | none =>
      (FileM.orElse
        (do
          write (env.faults .writeAnchor) .machineAnchor (seed env)
          attempt (env.faults .chmodAnchor)
          return seed env)
        (return seed env)) files

/-! ### The sealed key -/

section Sealed

variable {Key : Type} (nacl : Nacl Key)

def formatVersion : UInt8 := 1

def boxNonceSize : Nat := 24

/-- `_seal`. -/
def sealKey (privateKey : Bytes) (nonce : Random 24) (boxKey : Key) : Bytes :=
  formatVersion :: (nonce.1 ++ nacl.encrypt boxKey nonce.1 privateKey)

/-- `_unseal`; `none` is the `KeypairError`. -/
def unsealKey (blob : Bytes) (boxKey : Key) : Option Bytes :=
  if blob.length < 1 + boxNonceSize + 16 then none
  else if blob.head? ≠ some formatVersion then none
  else nacl.decrypt boxKey ((blob.drop 1).take boxNonceSize) (blob.drop (1 + boxNonceSize))

/-- The keypair of a private key. -/
def keypairOf (raw : Bytes) : Keypair where
  signingKey := raw
  verifyKey := nacl.verifyKey raw
  fingerprint := nacl.fingerprintOf (nacl.verifyKey raw)

/-- `SigningKey(raw)` raises unless the key has 32 bytes. -/
def load (raw : Bytes) : KeyM Keypair :=
  if raw.length = 32 then return keypairOf nacl raw else FileM.raise "ValueError"

/-- A new key, sealed and stored. -/
def generate (env : Env) (boxKey : Key) : KeyM Keypair := do
  let pair := keypairOf nacl env.keySeed.1
  write (env.faults .writeSealed) .privateSealedTmp (sealKey nacl env.keySeed.1 env.nonce boxKey)
  attempt (env.faults .chmodSealed)
  replace (env.faults .replaceSealed) .privateSealedTmp .privateSealed
  write (env.faults .writePublic) .publicRaw pair.verifyKey
  attempt (env.faults .chmodPublic)
  return pair

/-- `load_or_create`. -/
def loadOrCreate (env : Env) : KeyM Keypair := do
  let anchor ← machineAnchor env
  let boxKey := nacl.deriveBoxKey anchor
  match ← read .privateSealed with
  | none => generate nacl env boxKey
  | some blob =>
      match unsealKey nacl blob boxKey with
      | some raw => load nacl raw
      | none => do
          FileM.orElse (unlink (env.faults .unlinkSealed) .privateSealed) (return ())
          FileM.orElse (unlink (env.faults .unlinkPublic) .publicRaw) (return ())
          generate nacl env boxKey

end Sealed

/-! ### What one call does -/

section Call

variable {Key : Type} {nacl : Nacl Key} {env : Env} {files files' : Files File Bytes}
  {pair : Keypair}

/-- The anchor that a call derives its key from. -/
def usedAnchor (env : Env) (files : Files File Bytes) : Bytes := (persisted files).getD (seed env)

/-- The files with their anchor. -/
def anchored (env : Env) (files : Files File Bytes) : Files File Bytes :=
  match persisted files with
  | some _ => files
  | none => Function.update files .machineAnchor (some (seed env))

theorem machineAnchor_eq (hWrite : env.faults .writeAnchor = .none) (files : Files File Bytes) :
    machineAnchor env files = (.ok (usedAnchor env files), anchored env files) := by
  unfold machineAnchor usedAnchor anchored
  cases persisted files with
  | some data => rfl
  | none =>
      dsimp only
      rw [hWrite]
      cases env.faults .chmodAnchor <;> rfl

theorem anchored_sealed (env : Env) (files : Files File Bytes) :
    anchored env files .privateSealed = files .privateSealed := by
  unfold anchored
  cases persisted files with
  | some data => rfl
  | none => exact Function.update_of_ne (by decide) _ _

/-- The files yield a keypair: the anchor is valid, and the sealed key opens. -/
structure Yields (nacl : Nacl Key) (anchor : Bytes) (pair : Keypair) (sealed : Option Bytes) :
    Prop where
  opens : ∃ blob, sealed = some blob ∧
    unsealKey nacl blob (nacl.deriveBoxKey anchor) = some pair.signingKey
  length : pair.signingKey.length = 32
  whole : pair = keypairOf nacl pair.signingKey

/-- What was sealed opens again. -/
theorem unsealKey_sealKey (hNacl : nacl.Lawful) {raw : Bytes} (hRaw : raw.length = 32)
    (nonce : Random 24) (boxKey : Key) :
    unsealKey nacl (sealKey nacl raw nonce boxKey) boxKey = some raw := by
  have hTag := hNacl.tag_le boxKey nonce.1 raw
  have hNonce := nonce.2
  have hLength : ¬(sealKey nacl raw nonce boxKey).length < 1 + boxNonceSize + 16 := by
    simp only [sealKey, List.length_cons, List.length_append, boxNonceSize]
    omega
  have hParts : ((sealKey nacl raw nonce boxKey).drop 1).take boxNonceSize = nonce.1 ∧
      (sealKey nacl raw nonce boxKey).drop (1 + boxNonceSize) =
        nacl.encrypt boxKey nonce.1 raw := by
    constructor
    · rw [sealKey, List.drop_one, List.tail_cons]
      exact List.take_left' hNonce
    · rw [sealKey, Nat.add_comm, List.drop_succ_cons]
      exact List.drop_left' hNonce
  rw [unsealKey, if_neg hLength, if_neg (by simp [sealKey]), hParts.1, hParts.2]
  exact hNacl.decrypt_encrypt boxKey nonce.1 raw hRaw

theorem replace_ok {fault : Fault Bytes} {source target : File} {u : Unit}
    (h : replace fault source target files = (.ok u, files')) :
    ∃ content, files source = some content ∧
      files' = Function.update (Function.update files target (some content)) source none := by
  unfold replace at h
  split at h
  case h_1 content hContent =>
    simp only [Prod.mk.injEq] at h
    exact ⟨content, hContent, h.2.symm⟩
  case h_2 => cases h
  case h_3 => cases h

/-- A new key that is returned is stored, and leaves the anchor alone. -/
theorem generate_ok (hNacl : nacl.Lawful) {anchor : Bytes}
    (h : generate nacl env (nacl.deriveBoxKey anchor) files = (.ok pair, files')) :
    Yields nacl anchor pair (files' .privateSealed) ∧
      files' .machineAnchor = files .machineAnchor := by
  unfold generate at h
  obtain ⟨⟨⟩, afterWrite, hWrite, h⟩ := bind_ok h
  obtain ⟨⟨⟩, afterChmod, hChmod, h⟩ := bind_ok h
  obtain ⟨⟨⟩, afterReplace, hReplace, h⟩ := bind_ok h
  obtain ⟨⟨⟩, afterPublic, hPublic, h⟩ := bind_ok h
  obtain ⟨⟨⟩, afterMode, hMode, h⟩ := bind_ok h
  have hFirst := ((GetsThrough.write _ _ _ _).of_ok hWrite).2
  have hSecond := ((GetsThrough.attempt _ _).of_ok hChmod).2
  obtain ⟨content, hContent, hThird⟩ := replace_ok hReplace
  have hFourth := ((GetsThrough.write _ _ _ _).of_ok hPublic).2
  have hFifth := ((GetsThrough.attempt _ _).of_ok hMode).2
  obtain ⟨hPair, hFiles⟩ := Prod.mk.inj h
  have hContentEq : content = sealKey nacl env.keySeed.1 env.nonce (nacl.deriveBoxKey anchor) := by
    rw [hSecond, hFirst, Function.update_self, Option.some.injEq] at hContent
    exact hContent.symm
  have hKept : files' = Function.update (Function.update (Function.update
      (Function.update files .privateSealedTmp
        (some (sealKey nacl env.keySeed.1 env.nonce (nacl.deriveBoxKey anchor))))
      .privateSealed (some content)) .privateSealedTmp none) .publicRaw
      (some (keypairOf nacl env.keySeed.1).verifyKey) := by
    rw [← hFiles, hFifth, hFourth, hThird, hSecond, hFirst]
  have hPairEq : keypairOf nacl env.keySeed.1 = pair := Except.ok.inj hPair
  refine ⟨⟨⟨content, ?_, ?_⟩, ?_, ?_⟩, ?_⟩
  · rw [hKept, Function.update_of_ne (by decide), Function.update_of_ne (by decide),
      Function.update_self]
  · rw [hContentEq, ← hPairEq]
    exact unsealKey_sealKey hNacl env.keySeed.2 env.nonce _
  · rw [← hPairEq]
    exact env.keySeed.2
  · rw [← hPairEq]
    rfl
  · rw [hKept, Function.update_of_ne (by decide), Function.update_of_ne (by decide),
      Function.update_of_ne (by decide), Function.update_of_ne (by decide)]

theorem unlink_quiet_eq (fault : Fault Bytes) {file other : File} (hOther : other ≠ file)
    (files : Files File Bytes) :
    ∃ files', FileM.orElse (unlink fault file) (return ()) files = (.ok (), files') ∧
      files' other = files other := by
  cases fault with
  | none => exact ⟨_, rfl, Function.update_of_ne hOther _ _⟩
  | failed leftover => exact ⟨files, rfl, rfl⟩

/-- What a call returns is on disk, sealed under the anchor of the call. -/
theorem loadOrCreate_ok (hNacl : nacl.Lawful) (hWrite : env.faults .writeAnchor = .none)
    (h : loadOrCreate nacl env files = (.ok pair, files')) :
    Yields nacl (usedAnchor env files) pair (files' .privateSealed) ∧
      files' .machineAnchor = anchored env files .machineAnchor := by
  unfold loadOrCreate at h
  rw [bind_of_ok (machineAnchor_eq hWrite files)] at h
  obtain ⟨sealed, mid, hRead, h⟩ := bind_ok h
  obtain ⟨hSealed, hMid⟩ := Prod.mk.inj hRead
  rw [Except.ok.injEq] at hSealed
  subst hMid
  cases sealed with
  | none => exact generate_ok hNacl h
  | some blob =>
      dsimp only at h
      cases hOpens : unsealKey nacl blob (nacl.deriveBoxKey (usedAnchor env files)) with
      | some raw =>
          rw [hOpens] at h
          dsimp only [load] at h
          split_ifs at h with hLength
          · obtain ⟨hPair, hFiles⟩ := Prod.mk.inj h
            rw [Except.ok.injEq] at hPair
            subst hPair hFiles
            exact ⟨⟨⟨blob, hSealed, hOpens⟩, hLength, rfl⟩, rfl⟩
          · cases h
      | none =>
          rw [hOpens] at h
          obtain ⟨⟨⟩, afterSealed, hFirst, h⟩ := bind_ok h
          obtain ⟨⟨⟩, afterPublic, hSecond, h⟩ := bind_ok h
          obtain ⟨files₁, hRun₁, hAnchor₁⟩ := unlink_quiet_eq (env.faults .unlinkSealed)
            (show File.machineAnchor ≠ .privateSealed by decide) (anchored env files)
          obtain ⟨files₂, hRun₂, hAnchor₂⟩ := unlink_quiet_eq (env.faults .unlinkPublic)
            (show File.machineAnchor ≠ .publicRaw by decide) files₁
          rw [hRun₁] at hFirst
          obtain rfl := (Prod.mk.inj hFirst).2
          rw [hRun₂] at hSecond
          obtain rfl := (Prod.mk.inj hSecond).2
          obtain ⟨hYields, hAnchor⟩ := generate_ok hNacl h
          exact ⟨hYields, hAnchor.trans (hAnchor₂.trans hAnchor₁)⟩

/-- A valid anchor that opens the sealed key gives the keypair, and nothing is written. -/
theorem loadOrCreate_of_yields {anchor : Bytes} (hAnchor : persisted files = some anchor)
    (hYields : Yields nacl anchor pair (files .privateSealed)) (env : Env) :
    loadOrCreate nacl env files = (.ok pair, files) := by
  obtain ⟨blob, hBlob, hOpens⟩ := hYields.opens
  have hFound : machineAnchor env files = (.ok anchor, files) := by
    unfold machineAnchor
    rw [hAnchor]
  have hRead : read .privateSealed files = (.ok (some blob), files) := by
    unfold FileProgram.read
    rw [hBlob]
  unfold loadOrCreate
  rw [bind_of_ok hFound, bind_of_ok hRead]
  dsimp only
  rw [hOpens]
  dsimp only [load]
  rw [if_pos hYields.length, ← hYields.whole]
  rfl

/-- With another anchor the sealed key is dropped, and there is a new one. -/
theorem loadOrCreate_rotates (hNacl : nacl.Lawful) {anchor : Bytes}
    (hFaults : env.faults = fun _ => .none)
    (hYields : Yields nacl anchor pair (files .privateSealed))
    (hOther : usedAnchor env files ≠ anchor) :
    (loadOrCreate nacl env files).1 = .ok (keypairOf nacl env.keySeed.1) := by
  obtain ⟨blob, hBlob, hOpens⟩ := hYields.opens
  have hKeys : nacl.deriveBoxKey (usedAnchor env files) ≠ nacl.deriveBoxKey anchor :=
    fun hEq => hOther (hNacl.derive_injective hEq)
  have hClosed : unsealKey nacl blob (nacl.deriveBoxKey (usedAnchor env files)) = none := by
    unfold unsealKey at hOpens ⊢
    split_ifs at hOpens ⊢
    refine hNacl.decrypt_other _ _ _ _ ?_ hKeys
    rw [hOpens]
    rfl
  have hRead : read .privateSealed (anchored env files) =
      (.ok (some blob), anchored env files) := by
    unfold FileProgram.read
    rw [anchored_sealed, hBlob]
  unfold loadOrCreate
  rw [bind_of_ok (machineAnchor_eq (by rw [hFaults]) files), bind_of_ok hRead]
  dsimp only
  rw [hClosed]
  dsimp only [generate]
  rw [hFaults]
  rfl

end Call

/-! ### Restarts -/

section Restarts

variable {Key : Type} {nacl : Nacl Key} {env : Env} {files files' : Files File Bytes}
  {pair : Keypair}

/-- The writes of the call succeed. -/
def WritesSucceed (env : Env) : Prop :=
  ∀ point ∈ [Point.writeAnchor, .writeSealed, .replaceSealed, .writePublic],
    env.faults point = .none

/-- The anchor of the call is read back as it was used: it was on disk, or it is a
machine-id, or the random bytes have no white space at their ends. -/
def ReadsBack (env : Env) (files : Files File Bytes) : Prop :=
  (persisted files).isSome = true ∨ (machineSeed env).isSome = true ∨
    strip env.anchorBytes.1 = env.anchorBytes.1

instance : Decidable (ReadsBack env files) := by
  unfold ReadsBack
  infer_instance

/-- The directory after further calls. -/
def restarts (nacl : Nacl Key) (files : Files File Bytes) (calls : List Env) : Files File Bytes :=
  Runs.run (fun files env => (loadOrCreate nacl env files).2) files calls

theorem machineSeed_spec {raw : Bytes} (h : machineSeed env = some raw) :
    strip raw = raw ∧ 16 ≤ raw.length := by
  unfold machineSeed at h
  obtain ⟨candidate, -, hCandidate⟩ := List.exists_of_findSome?_eq_some h
  obtain ⟨text, -, hText⟩ := Option.bind_eq_some_iff.mp hCandidate
  dsimp only at hText
  split_ifs at hText with hLength
  obtain rfl := Option.some.inj hText
  exact ⟨strip_stripText text, hLength⟩

/-- The files that a call leaves have its anchor when it reads back. -/
theorem persisted_of_readsBack (hReads : ReadsBack env files)
    (hAnchor : files' .machineAnchor = anchored env files .machineAnchor) :
    persisted files' = some (usedAnchor env files) := by
  unfold anchored at hAnchor
  unfold usedAnchor
  cases hPersisted : persisted files with
  | some data =>
      rw [hPersisted] at hAnchor
      unfold persisted at hPersisted ⊢
      rw [hAnchor]
      exact hPersisted
  | none =>
      rw [hPersisted] at hAnchor
      dsimp only at hAnchor
      rw [Function.update_self] at hAnchor
      have hSeed : strip (seed env) = seed env ∧ 16 ≤ (seed env).length := by
        unfold seed
        cases hMachine : machineSeed env with
        | some raw => exact machineSeed_spec hMachine
        | none =>
            rcases hReads with hOld | hNew | hRandom
            · rw [hPersisted] at hOld
              cases hOld
            · rw [hMachine] at hNew
              cases hNew
            · refine ⟨hRandom, ?_⟩
              rw [Option.getD_none, env.anchorBytes.2]
              decide
      unfold persisted
      rw [hAnchor, Option.map_some, hSeed.1, Option.bind_eq_bind, Option.bind_some, if_pos hSeed.2]
      rfl

/-- A number of bytes of one value. -/
def constant (n : Nat) (b : UInt8) : Random n := ⟨List.replicate n b, List.length_replicate⟩

/-- A restart where no machine-id can be read, the new anchor would be zeros, and every
operation succeeds. -/
def laterCall (keySeed : Random 32) : Env where
  machineId := none
  dbusMachineId := none
  anchorBytes := constant 32 0
  keySeed := keySeed
  nonce := constant 24 0
  faults := fun _ => .none

/-- An anchor that is read back stripped is another one in a later call. -/
theorem usedAnchor_laterCall {anchor : Bytes} (hFile : files .machineAnchor = some anchor)
    (hStrip : strip anchor ≠ anchor) (keySeed : Random 32) :
    usedAnchor (laterCall keySeed) files ≠ anchor := by
  unfold usedAnchor persisted
  rw [hFile, Option.map_some, Option.bind_eq_bind, Option.bind_some]
  split_ifs with hLong
  · exact hStrip
  · rintro rfl
    exact hStrip (show strip (constant 32 0).1 = (constant 32 0).1 by decide)

/-- There is always another private key. -/
theorem exists_other_seed (pair : Keypair) : ∃ other : Random 32, other.1 ≠ pair.signingKey := by
  by_cases hZero : (constant 32 0).1 = pair.signingKey
  · exact ⟨constant 32 1, fun hOne => absurd (hOne.trans hZero.symm) (by decide)⟩
  · exact ⟨constant 32 0, hZero⟩

end Restarts

/-- The keypair of a call is the keypair of every later call exactly when the anchor of
the call is read back as it was used. -/
theorem keypair_survives_iff {Key : Type} {nacl : Nacl Key} (hNacl : nacl.Lawful) {env : Env}
    {files files' : Files File Bytes} {pair : Keypair} (hWrites : WritesSucceed env)
    (hReturned : loadOrCreate nacl env files = (.ok pair, files')) :
    (∀ calls later, (loadOrCreate nacl later (restarts nacl files' calls)).1 = .ok pair) ↔
      ReadsBack env files := by
  obtain ⟨hYields, hAnchor⟩ := loadOrCreate_ok hNacl (hWrites _ (by simp)) hReturned
  constructor
  · intro hSurvives
    by_contra hNot
    simp only [ReadsBack, not_or, Option.not_isSome_iff_eq_none] at hNot
    obtain ⟨hPersisted, hMachine, hStrip⟩ := hNot
    have hUsed : usedAnchor env files = env.anchorBytes.1 := by
      rw [usedAnchor, hPersisted, Option.getD_none, seed, hMachine, Option.getD_none]
    have hFile : files' .machineAnchor = some env.anchorBytes.1 := by
      rw [hAnchor, anchored, hPersisted]
      dsimp only
      rw [Function.update_self, seed, hMachine, Option.getD_none]
    obtain ⟨other, hOther⟩ := exists_other_seed pair
    have hChanged := usedAnchor_laterCall hFile hStrip other
    have hRotated := loadOrCreate_rotates hNacl rfl hYields (hUsed ▸ hChanged)
    have hSame := hSurvives [] (laterCall other)
    rw [restarts, Runs.run_nil, hRotated, Except.ok.injEq] at hSame
    exact hOther (congrArg Keypair.signingKey hSame)
  · intro hReads calls later
    have hPersisted := persisted_of_readsBack hReads hAnchor
    have hCall := loadOrCreate_of_yields hPersisted hYields
    have hStep : ∀ now call, now = files' → (loadOrCreate nacl call now).2 = files' := by
      rintro now call rfl
      rw [hCall call]
    have hFiles : restarts nacl files' calls = files' := Runs.run_preserves hStep rfl calls
    rw [hFiles, hCall later]

/-! ### A box on the bench -/

/-- A cipher that appends the key, and a tag of zeros. -/
def plainNacl : Nacl Bytes where
  deriveBoxKey := id
  encrypt key _ message := message ++ (constant 16 0).1 ++ key
  decrypt key _ ciphertext :=
    if 48 ≤ ciphertext.length ∧ ciphertext.drop 48 = key then some (ciphertext.take 32) else none
  verifyKey := id
  fingerprintOf := fun _ => ""

theorem plainNacl_lawful : plainNacl.Lawful where
  derive_injective := Function.injective_id
  decrypt_encrypt := by
    intro key nonce message hMessage
    have hFront : (message ++ (constant 16 0).1).length = 48 := by
      rw [List.length_append, hMessage]
      rfl
    have hLong : 48 ≤ (message ++ (constant 16 0).1 ++ key).length := by
      rw [List.length_append, hFront]
      exact Nat.le_add_right 48 _
    have hTake : (message ++ (constant 16 0).1 ++ key).take 32 = message := by
      rw [List.append_assoc]
      exact List.take_left' hMessage
    show (if _ ∧ _ then _ else _) = _
    rw [if_pos ⟨hLong, List.drop_left' hFront⟩]
    exact congrArg some hTake
  decrypt_other := by
    intro key key' nonce ciphertext hOpens hOther
    dsimp only [plainNacl] at hOpens ⊢
    rw [if_neg]
    rintro ⟨hLong, hKey⟩
    rw [if_neg (by rw [hKey]; exact fun h => hOther h.2)] at hOpens
    cases hOpens
  tag_le := by
    intro key nonce message
    have hTag : (constant 16 0).1.length = 16 := (constant 16 0).2
    simp only [plainNacl, List.length_append, hTag]
    omega

/-- A first start in an empty directory, with what the random generator gave. -/
def firstCall (anchorBytes : Random 32) : Env where
  machineId := none
  dbusMachineId := none
  anchorBytes := anchorBytes
  keySeed := constant 32 7
  nonce := constant 24 9
  faults := fun _ => .none

/-- The first start makes a key, and every later one loads it. -/
theorem keypair_survives_bench :
    (loadOrCreate plainNacl (firstCall (constant 32 5)) fun _ => none).1 =
        .ok (keypairOf plainNacl (constant 32 7).1) ∧
      ∀ calls later, (loadOrCreate plainNacl later (restarts plainNacl
        (loadOrCreate plainNacl (firstCall (constant 32 5)) fun _ => none).2 calls)).1 =
          .ok (keypairOf plainNacl (constant 32 7).1) := by
  have hReturned : (loadOrCreate plainNacl (firstCall (constant 32 5)) fun _ => none).1 =
      .ok (keypairOf plainNacl (constant 32 7).1) := by decide +kernel
  have hWrites : WritesSucceed (firstCall (constant 32 5)) := fun _ _ => rfl
  exact ⟨hReturned, (keypair_survives_iff plainNacl_lawful hWrites
    (Prod.ext hReturned rfl)).mpr (Or.inr (Or.inr (by decide)))⟩

/-- Random bytes that end in a line feed. -/
def lineFeedBytes : Random 32 := ⟨List.replicate 31 5 ++ [0x0a], rfl⟩

/-- With an anchor that ends in a line feed the next start reads one byte less, and makes
another key. -/
theorem keypair_lost :
    plainNacl.Lawful ∧ WritesSucceed (firstCall lineFeedBytes) ∧
      (loadOrCreate plainNacl (firstCall lineFeedBytes) fun _ => none).1 =
        .ok (keypairOf plainNacl (constant 32 7).1) ∧
      (loadOrCreate plainNacl (laterCall (constant 32 8))
        (loadOrCreate plainNacl (firstCall lineFeedBytes) fun _ => none).2).1 =
        .ok (keypairOf plainNacl (constant 32 8).1) ∧
      keypairOf plainNacl (constant 32 7).1 ≠ keypairOf plainNacl (constant 32 8).1 := by
  refine ⟨plainNacl_lawful, fun _ _ => rfl, ?_⟩
  decide +kernel

end WattPost.Auth.ApplianceKey
