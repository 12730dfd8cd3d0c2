import Mathlib.Logic.Function.Basic

/-! Programs over a few files, each operation of which may fail. A failed write
may leave anything in its file; the other operations fail without effect. The
rules say which files a program can change, what it can return, and when it
returns at all. -/
namespace FileProgram

/-- The files: their contents, where they exist. -/
abbrev Files (F C : Type) := F → Option C

/-- A program: it returns or raises, and leaves the files behind. -/
def FileM (F C α : Type) := Files F C → Except String α × Files F C

variable {F C α β : Type}

namespace FileM

protected def pure (a : α) : FileM F C α := fun files => (.ok a, files)

protected def bind (m : FileM F C α) (k : α → FileM F C β) : FileM F C β := fun files =>
  match m files with
  | (.ok a, files') => k a files'
  | (.error e, files') => (.error e, files')

instance : Monad (FileM F C) where
  pure := FileM.pure
  bind := FileM.bind

def raise (message : String) : FileM F C α := fun files => (.error message, files)

/-- `try: m except Exception: handler`. -/
def orElse (m : FileM F C α) (handler : FileM F C α) : FileM F C α := fun files =>
  match m files with
  | (.ok a, files') => (.ok a, files')
  | (.error _, files') => handler files'

/-- `try: m except Exception as e: handler(e)`. -/
def handle (m : FileM F C α) (handler : String → FileM F C α) : FileM F C α := fun files =>
  match m files with
  | (.ok a, files') => (.ok a, files')
  | (.error e, files') => handler e files'

/-- `try: m finally: after`. -/
def thenAlways (m : FileM F C α) (after : FileM F C Unit) : FileM F C α := fun files =>
  match after (m files).2 with
  | (.ok (), files') => ((m files).1, files')
  | (.error e, files') => (.error e, files')

end FileM

/-- Whether an operation fails, and what a failed write leaves in its file. -/
inductive Fault (C : Type) where
  | none
  | failed (leftover : Option C)

/-- The operation fails. -/
def Fault.Fails : Fault C → Prop
  | .none => False
  | .failed _ => True

instance (fault : Fault C) : Decidable fault.Fails :=
  match fault with
  | .none => .isFalse id
  | .failed _ => .isTrue trivial

@[simp] theorem Fault.fails_none : (Fault.none : Fault C).Fails ↔ False := Iff.rfl

@[simp] theorem Fault.fails_failed (leftover : Option C) : (Fault.failed leftover).Fails ↔ True :=
  Iff.rfl

/-- An operation without effect on the contents. -/
def attempt (fault : Fault C) : FileM F C Unit := fun files =>
  match fault with
  | .none => (.ok (), files)
  | .failed _ => (.error "OSError", files)

def read (file : F) : FileM F C (Option C) := fun files => (.ok (files file), files)

section Operations

variable [DecidableEq F]

def write (fault : Fault C) (file : F) (content : C) : FileM F C Unit := fun files =>
  match fault with
  | .none => (.ok (), Function.update files file (some content))
  | .failed none => (.error "OSError", files)
  | .failed (some leftover) => (.error "OSError", Function.update files file (some leftover))

/-- `unlink`, where a missing file is no error. -/
def unlink (fault : Fault C) (file : F) : FileM F C Unit := fun files =>
  match fault with
  | .none => (.ok (), Function.update files file none)
  | .failed _ => (.error "OSError", files)

/-- `os.replace`. -/
def replace (fault : Fault C) (source target : F) : FileM F C Unit := fun files =>
  match fault, files source with
  | .none, some content =>
      (.ok (), Function.update (Function.update files target (some content)) source none)
  | .none, none => (.error "FileNotFoundError", files)
  | .failed _, _ => (.error "OSError", files)

end Operations

/-! ### What a program can change -/

/-- However it ends, the program leaves the files outside `S` alone. -/
def Touches (S : F → Prop) (m : FileM F C α) : Prop :=
  ∀ files f, ¬ S f → (m files).2 f = files f

section Rules

variable {S : F → Prop}

theorem Touches.pure (a : α) : Touches S (Pure.pure a : FileM F C α) := fun _ _ _ => rfl

theorem Touches.mono {T : F → Prop} {m : FileM F C α} (h : Touches S m)
    (hSub : ∀ f, S f → T f) : Touches T m := fun files f hf => h files f (mt (hSub f) hf)

theorem Touches.raise (message : String) : Touches S (FileM.raise message : FileM F C α) :=
  fun _ _ _ => rfl

theorem Touches.bind {m : FileM F C α} {k : α → FileM F C β} (hm : Touches S m)
    (hk : ∀ a, Touches S (k a)) : Touches S (m >>= k) := by
  intro files f hf
  have hFirst := hm files f hf
  show (FileM.bind m k files).2 f = files f
  unfold FileM.bind
  split
  case h_1 a files' hOk =>
    rw [hOk] at hFirst
    exact (hk a files' f hf).trans hFirst
  case h_2 e files' hError =>
    rw [hError] at hFirst
    exact hFirst

theorem Touches.orElse {m handler : FileM F C α} (hm : Touches S m) (hh : Touches S handler) :
    Touches S (m.orElse handler) := by
  intro files f hf
  have hFirst := hm files f hf
  unfold FileM.orElse
  split
  case h_1 a files' hOk =>
    rw [hOk] at hFirst
    exact hFirst
  case h_2 e files' hError =>
    rw [hError] at hFirst
    exact (hh files' f hf).trans hFirst

theorem Touches.thenAlways {m : FileM F C α} {after : FileM F C Unit} (hm : Touches S m)
    (ha : Touches S after) : Touches S (m.thenAlways after) := by
  intro files f hf
  have hBoth : (after (m files).2).2 f = files f := (ha _ f hf).trans (hm files f hf)
  unfold FileM.thenAlways
  split
  case h_1 files' hOk =>
    rw [hOk] at hBoth
    exact hBoth
  case h_2 e files' hError =>
    rw [hError] at hBoth
    exact hBoth

theorem Touches.attempt (fault : Fault C) : Touches S (attempt fault : FileM F C Unit) := by
  intro files f _
  cases fault <;> rfl

theorem Touches.read (file : F) : Touches S (read file : FileM F C (Option C)) :=
  fun _ _ _ => rfl

variable [DecidableEq F]

theorem Touches.write (fault : Fault C) {file : F} (hFile : S file) (content : C) :
    Touches S (write fault file content) := by
  intro files f hf
  have hNe : f ≠ file := fun hEq => hf (hEq ▸ hFile)
  cases fault with
  | none => exact Function.update_of_ne hNe _ _
  | failed leftover =>
      cases leftover with
      | none => rfl
      | some leftover => exact Function.update_of_ne hNe _ _

theorem Touches.unlink (fault : Fault C) {file : F} (hFile : S file) :
    Touches S (unlink fault file : FileM F C Unit) := by
  intro files f hf
  have hNe : f ≠ file := fun hEq => hf (hEq ▸ hFile)
  cases fault with
  | none => exact Function.update_of_ne hNe _ _
  | failed leftover => rfl

theorem Touches.replace (fault : Fault C) {source target : F} (hSource : S source)
    (hTarget : S target) : Touches S (replace fault source target : FileM F C Unit) := by
  intro files f hf
  have hNeSource : f ≠ source := fun hEq => hf (hEq ▸ hSource)
  have hNeTarget : f ≠ target := fun hEq => hf (hEq ▸ hTarget)
  unfold FileProgram.replace
  split
  · show Function.update (Function.update files target _) source none f = files f
    rw [Function.update_of_ne hNeSource, Function.update_of_ne hNeTarget]
  · rfl
  · rfl

end Rules

/-- What comes after has no say in a file that it does not touch. -/
theorem snd_bind_of_touches {S : F → Prop} {m : FileM F C α} {k : α → FileM F C β}
    (hk : ∀ a, Touches S (k a)) {f : F} (hf : ¬ S f) (files : Files F C) :
    ((m >>= k) files).2 f = (m files).2 f := by
  show (FileM.bind m k files).2 f = (m files).2 f
  unfold FileM.bind
  split
  case h_1 a files' hOk =>
    rw [hOk]
    exact hk a files' f hf
  case h_2 e files' hError => rw [hError]

/-- A program that returned got through its first part. -/
theorem bind_ok {m : FileM F C α} {k : α → FileM F C β} {files files' : Files F C} {b : β}
    (h : (m >>= k) files = (.ok b, files')) :
    ∃ a mid, m files = (.ok a, mid) ∧ k a mid = (.ok b, files') := by
  change FileM.bind m k files = (.ok b, files') at h
  unfold FileM.bind at h
  split at h
  case h_1 a mid hOk => exact ⟨a, mid, hOk, h⟩
  case h_2 => cases h

theorem bind_of_ok {m : FileM F C α} {files mid : Files F C} {a : α} (h : m files = (.ok a, mid))
    (k : α → FileM F C β) : (m >>= k) files = k a mid := by
  show FileM.bind m k files = k a mid
  unfold FileM.bind
  rw [h]

theorem bind_of_error {m : FileM F C α} {files mid : Files F C} {e : String}
    (h : m files = (.error e, mid)) (k : α → FileM F C β) :
    (m >>= k) files = (.error e, mid) := by
  show FileM.bind m k files = (.error e, mid)
  unfold FileM.bind
  rw [h]

theorem handle_of_ok {m : FileM F C α} {files files' : Files F C} {a : α}
    (h : m files = (.ok a, files')) (handler : String → FileM F C α) :
    m.handle handler files = (.ok a, files') := by
  unfold FileM.handle
  rw [h]

theorem thenAlways_ok {m : FileM F C α} {after : FileM F C Unit} {files files' : Files F C} {a : α}
    (h : m.thenAlways after files = (.ok a, files')) : (m files).1 = .ok a := by
  unfold FileM.thenAlways at h
  split at h
  · exact congrArg Prod.fst h
  · cases h

/-- What always comes after has no say in a file that it does not touch. -/
theorem snd_thenAlways_of_touches {S : F → Prop} {m : FileM F C α} {after : FileM F C Unit}
    (ha : Touches S after) {f : F} (hf : ¬ S f) (files : Files F C) :
    (m.thenAlways after files).2 f = (m files).2 f := by
  have hAfter := ha (m files).2 f hf
  unfold FileM.thenAlways
  split
  case h_1 files' hOk =>
    rw [hOk] at hAfter
    exact hAfter
  case h_2 e files' hError =>
    rw [hError] at hAfter
    exact hAfter

/-! ### What a program can return -/

/-- Whatever the program returns meets `P`. -/
def Returns (m : FileM F C α) (P : α → Prop) : Prop := ∀ files a, (m files).1 = .ok a → P a

theorem Returns.pure {P : α → Prop} {a : α} (h : P a) :
    Returns (Pure.pure a : FileM F C α) P := by
  intro files b hb
  cases hb
  exact h

theorem Returns.bind {m : FileM F C α} {k : α → FileM F C β} {P : α → Prop} {Q : β → Prop}
    (hm : Returns m P) (hk : ∀ a, P a → Returns (k a) Q) : Returns (m >>= k) Q := by
  intro files b hb
  change (FileM.bind m k files).1 = .ok b at hb
  unfold FileM.bind at hb
  split at hb
  case h_1 a files' hOk =>
    have hReturned : (m files).1 = .ok a := by rw [hOk]
    exact hk a (hm files a hReturned) files' b hb
  case h_2 => cases hb

theorem Returns.raise {P : α → Prop} (message : String) :
    Returns (FileM.raise message : FileM F C α) P := fun _ _ h => nomatch h

theorem Returns.orElse {m handler : FileM F C α} {P : α → Prop} (hm : Returns m P)
    (hh : Returns handler P) : Returns (m.orElse handler) P := by
  intro files a ha
  unfold FileM.orElse at ha
  split at ha
  case h_1 b files' hOk =>
    exact hm files a (by rw [hOk]; exact ha)
  case h_2 e files' _ => exact hh files' a ha

theorem Returns.trivial (m : FileM F C α) : Returns m fun _ => True := fun _ _ _ => True.intro

/-! ### When a program gets through -/

/-- The program returns exactly when `G` holds, and then `P` holds of what it
returns and of the files it leaves. -/
def GetsThrough (m : FileM F C α) (files : Files F C) (G : Prop) (P : α → Files F C → Prop) :
    Prop :=
  match m files with
  | (.ok a, files') => G ∧ P a files'
  | (.error _, _) => ¬ G

section Through

variable {files files' : Files F C} {m : FileM F C α} {G H : Prop} {P Q : α → Files F C → Prop}

theorem GetsThrough.of_ok (h : GetsThrough m files G P) {a : α} (hOk : m files = (.ok a, files')) :
    G ∧ P a files' := by
  unfold GetsThrough at h
  rwa [hOk] at h

theorem GetsThrough.of_error (h : GetsThrough m files G P) {e : String}
    (hError : m files = (.error e, files')) : ¬ G := by
  unfold GetsThrough at h
  rwa [hError] at h

theorem GetsThrough.mono (h : GetsThrough m files G P) (hG : H ↔ G)
    (hP : ∀ a files', G → P a files' → Q a files') : GetsThrough m files H Q := by
  unfold GetsThrough at h ⊢
  split
  case h_1 a files' hOk =>
    rw [hOk] at h
    exact ⟨hG.mpr h.1, hP a files' h.1 h.2⟩
  case h_2 e files' hError =>
    rw [hError] at h
    exact mt hG.mp h

theorem GetsThrough.pure {a : α} (h : P a files) :
    GetsThrough (Pure.pure a : FileM F C α) files True P := ⟨True.intro, h⟩

theorem GetsThrough.raise (message : String) :
    GetsThrough (FileM.raise message : FileM F C α) files False P := id

theorem GetsThrough.bind {β : Type} {k : α → FileM F C β} {R : β → Files F C → Prop}
    (hm : GetsThrough m files G P)
    (hk : ∀ a files', P a files' → GetsThrough (k a) files' H R) :
    GetsThrough (m >>= k) files (G ∧ H) R := by
  show match FileM.bind m k files with
    | (.ok b, files') => (G ∧ H) ∧ R b files'
    | (.error _, _) => ¬ (G ∧ H)
  unfold GetsThrough at hm
  unfold FileM.bind
  cases hResult : m files with
  | mk result mid =>
      rw [hResult] at hm
      cases result with
      | error e => exact fun hBoth => hm hBoth.1
      | ok a =>
          have hRest := hk a mid hm.2
          unfold GetsThrough at hRest
          dsimp only
          split at hRest
          case h_1 => exact ⟨⟨hm.1, hRest.1⟩, hRest.2⟩
          case h_2 => exact fun hBoth => hRest hBoth.2

/-- The handler starts from whatever the first program left. -/
theorem GetsThrough.orElse {handler : FileM F C α} (hm : GetsThrough m files G P)
    (hh : ∀ files', GetsThrough handler files' H Q) :
    GetsThrough (m.orElse handler) files (G ∨ H) fun a files' =>
      (G ∧ P a files') ∨ (¬ G ∧ Q a files') := by
  unfold GetsThrough at hm ⊢
  unfold FileM.orElse
  cases hResult : m files with
  | mk result mid =>
      rw [hResult] at hm
      cases result with
      | ok a => exact ⟨Or.inl hm.1, Or.inl hm⟩
      | error e =>
          have hHandler := hh mid
          unfold GetsThrough at hHandler
          dsimp only
          split at hHandler
          case h_1 => exact ⟨Or.inr hHandler.1, Or.inr ⟨hm, hHandler.2⟩⟩
          case h_2 => exact not_or.mpr ⟨hm, hHandler⟩

/-- A file that the program does not touch is as before. -/
theorem GetsThrough.frame {S : F → Prop} (h : GetsThrough m files G P) (hm : Touches S m) {f : F}
    (hf : ¬ S f) : GetsThrough m files G fun a files' => P a files' ∧ files' f = files f := by
  have hSame := hm files f hf
  unfold GetsThrough at h ⊢
  split
  case h_1 a files' hOk =>
    rw [hOk] at h hSame
    exact ⟨h.1, h.2, hSame⟩
  case h_2 e files' hError =>
    rw [hError] at h
    exact h

theorem GetsThrough.attempt (fault : Fault C) (files : Files F C) :
    GetsThrough (attempt fault : FileM F C Unit) files (¬ fault.Fails) fun _ files' =>
      files' = files := by
  cases fault with
  | none => exact ⟨id, rfl⟩
  | failed leftover => exact not_not_intro True.intro

theorem GetsThrough.write [DecidableEq F] (fault : Fault C) (file : F) (content : C)
    (files : Files F C) :
    GetsThrough (write fault file content) files (¬ fault.Fails) fun _ files' =>
      files' = Function.update files file (some content) := by
  cases fault with
  | none => exact ⟨id, rfl⟩
  | failed leftover => cases leftover <;> exact not_not_intro True.intro

end Through

/-! ### What a program keeps -/

/-- However it ends, the program leaves the files as `I` has them where it found them so. -/
def Keeps (I : Files F C → Prop) (m : FileM F C α) : Prop := ∀ files, I files → I (m files).2

section Keeps

variable {I : Files F C → Prop}

theorem Keeps.pure (a : α) : Keeps I (Pure.pure a : FileM F C α) := fun _ h => h

theorem Keeps.raise (message : String) : Keeps I (FileM.raise message : FileM F C α) :=
  fun _ h => h

theorem Keeps.attempt (fault : Fault C) : Keeps I (attempt fault : FileM F C Unit) := by
  intro files h
  cases fault <;> exact h

theorem Keeps.bind {m : FileM F C α} {k : α → FileM F C β} (hm : Keeps I m)
    (hk : ∀ a, Keeps I (k a)) : Keeps I (m >>= k) := by
  intro files h
  have hFirst := hm files h
  show I (FileM.bind m k files).2
  unfold FileM.bind
  cases hResult : m files with
  | mk result mid =>
      rw [hResult] at hFirst
      cases result with
      | ok a => exact hk a mid hFirst
      | error e => exact hFirst

theorem Keeps.handle {m : FileM F C α} {handler : String → FileM F C α} (hm : Keeps I m)
    (hh : ∀ e, Keeps I (handler e)) : Keeps I (m.handle handler) := by
  intro files h
  have hFirst := hm files h
  unfold FileM.handle
  cases hResult : m files with
  | mk result mid =>
      rw [hResult] at hFirst
      cases result with
      | ok a => exact hFirst
      | error e => exact hh e mid hFirst

/-- What is said of one file alone is kept by a program that does not touch it. -/
theorem Keeps.of_touches {S : F → Prop} {m : FileM F C α} (hm : Touches S m) {f : F}
    (hf : ¬ S f) (content : Option C) : Keeps (fun files => files f = content) m :=
  fun files h => (hm files f hf).trans h

end Keeps

end FileProgram
