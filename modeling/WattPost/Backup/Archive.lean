import WattPost.Backup.Restore

/-! The configuration inside a backup: what `build_archive_bytes` writes of `config.yaml`,
and what is left in it of the texts under credential names. -/
namespace WattPost.Backup

open Cloud (Json Fields)

/-! ### The member of the archive -/

/-- The configuration without its `cloud` block. -/
def withoutCloud (config : Fields) : Fields := config.filter fun field => field.1 != "cloud"

/-- The `cloud` block is taken out, the rest is redacted, and the block goes to the end. -/
def redactedConfig (config : Fields) : Fields :=
  let redacted := (redactFields "" (withoutCloud config)).1
  match Json.get? config "cloud" with
  | none | some .null => redacted
  | some cloudBlock => PyDict.setEntry "cloud" cloudBlock redacted

/-! ### Texts under credential names -/

section Texts

mutual

/-- No text but the empty one, at any depth. -/
def noText : Json → Bool
  | .str s => s == ""
  | .arr values => noTextValues values
  | .obj fields => noTextFields fields
  | _ => true

def noTextValues : List Json → Bool
  | [] => true
  | value :: rest => noText value && noTextValues rest

def noTextFields : List (String × Json) → Bool
  | [] => true
  | (_, value) :: rest => noText value && noTextFields rest

end

mutual

/-- Whether every value under a credential name passes a test, at any depth. -/
def everySecret (test : Json → Bool) : Json → Bool
  | .arr values => everySecretValues test values
  | .obj fields => everySecretFields test fields
  | _ => true

def everySecretValues (test : Json → Bool) : List Json → Bool
  | [] => true
  | value :: rest => everySecret test value && everySecretValues test rest

def everySecretFields (test : Json → Bool) : List (String × Json) → Bool
  | [] => true
  | (key, value) :: rest =>
      (!looksSecret key || test value) && everySecret test value && everySecretFields test rest

end

mutual

/-- The same value up to texts under credential names, which may be emptied. -/
def keepsRest (secret : Bool) : Json → Json → Bool
  | .str s, .str t => s == t || (secret && t == "")
  | .arr xs, .arr ys => keepsRestValues secret xs ys
  | .obj xs, .obj ys => keepsRestFields secret xs ys
  | .null, .null => true
  | .bool a, .bool b => a == b
  | .int a, .int b => a == b
  | .float a, .float b => a == b
  | _, _ => false

def keepsRestValues (secret : Bool) : List Json → List Json → Bool
  | [], [] => true
  | x :: xs, y :: ys => keepsRest secret x y && keepsRestValues secret xs ys
  | _, _ => false

def keepsRestFields (secret : Bool) : List (String × Json) → List (String × Json) → Bool
  | [], [] => true
  | (m, x) :: xs, (n, y) :: ys =>
      m == n && keepsRest (secret || looksSecret m) x y && keepsRestFields secret xs ys
  | _, _ => false

end

/-- What the redactor leaves without a text: a text, which it empties, and a value
without one. -/
def emptied : Json → Bool
  | .str _ => true
  | value => noText value

theorem emptied_of_noText {value : Json} (h : noText value = true) : emptied value = true := by
  cases value <;> first | rfl | exact h

mutual

/-- A value without a text has none under a credential name. -/
theorem everySecret_of_noText {test : Json → Bool} (hTest : ∀ v, noText v = true → test v = true) :
    ∀ value, noText value = true → everySecret test value = true
  | .null, _ | .bool _, _ | .int _, _ | .float _, _ | .str _, _ => by simp [everySecret]
  | .arr values, h => by
      rw [noText] at h
      rw [everySecret]
      exact everySecretValues_of_noText hTest values h
  | .obj fields, h => by
      rw [noText] at h
      rw [everySecret]
      exact everySecretFields_of_noText hTest fields h

theorem everySecretValues_of_noText {test : Json → Bool}
    (hTest : ∀ v, noText v = true → test v = true) :
    ∀ values, noTextValues values = true → everySecretValues test values = true
  | [], _ => by rw [everySecretValues]
  | value :: rest, h => by
      rw [noTextValues, Bool.and_eq_true] at h
      rw [everySecretValues, everySecret_of_noText hTest value h.1,
        everySecretValues_of_noText hTest rest h.2, Bool.and_self]

theorem everySecretFields_of_noText {test : Json → Bool}
    (hTest : ∀ v, noText v = true → test v = true) :
    ∀ fields, noTextFields fields = true → everySecretFields test fields = true
  | [], _ => by rw [everySecretFields]
  | (key, value) :: rest, h => by
      rw [noTextFields, Bool.and_eq_true] at h
      rw [everySecretFields, hTest value h.1, Bool.or_true, everySecret_of_noText hTest value h.1,
        everySecretFields_of_noText hTest rest h.2, Bool.and_self, Bool.and_self]

end

mutual

theorem keepsRest_self (secret : Bool) : ∀ value, keepsRest secret value value = true
  | .null => by rw [keepsRest]
  | .bool b => by rw [keepsRest, beq_self_eq_true]
  | .int n => by rw [keepsRest, beq_self_eq_true]
  | .float literal => by rw [keepsRest, beq_self_eq_true]
  | .str s => by rw [keepsRest, beq_self_eq_true, Bool.true_or]
  | .arr values => by rw [keepsRest, keepsRestValues_self]
  | .obj fields => by rw [keepsRest, keepsRestFields_self]

theorem keepsRestValues_self (secret : Bool) : ∀ values, keepsRestValues secret values values = true
  | [] => by rw [keepsRestValues]
  | value :: rest => by
      rw [keepsRestValues, keepsRest_self, keepsRestValues_self, Bool.and_self]

theorem keepsRestFields_self (secret : Bool) : ∀ fields, keepsRestFields secret fields fields = true
  | [] => by rw [keepsRestFields]
  | (key, value) :: rest => by
      rw [keepsRestFields, keepsRest_self, keepsRestFields_self, beq_self_eq_true, Bool.and_self,
        Bool.and_self]

end

end Texts

/-! ### The redactor -/

/-- What the redactor puts under a credential name. -/
def redactSecret : Json → Json
  | .str _ => .str ""
  | value => value

theorem redactFields_secret {path key : String} {value : Json} {rest : Fields}
    (h : looksSecret key = true) :
    (redactFields path ((key, value) :: rest)).1 =
      (key, redactSecret value) :: (redactFields path rest).1 := by
  cases value with
  | str s =>
      by_cases hEmpty : s = ""
      · simp [redactFields, h, hEmpty, redactSecret]
      · simp [redactFields, h, hEmpty, redactSecret]
  | _ => simp [redactFields, h, redactSecret]

theorem redactFields_other {path key : String} {value : Json} {rest : Fields}
    (h : looksSecret key = false) :
    (redactFields path ((key, value) :: rest)).1 =
      (key, (redactCredentials (path ++ "." ++ key) value).1) :: (redactFields path rest).1 := by
  simp [redactFields, h]

/-- Under a credential name every text is gone exactly when the value was one text, or
had none. -/
theorem redactSecret_clean (value : Json) :
    (noText (redactSecret value) && everySecret noText (redactSecret value)) =
      (emptied value && everySecret emptied value) := by
  have hKept : ∀ v, redactSecret v = v → emptied v = noText v →
      (noText (redactSecret v) && everySecret noText (redactSecret v)) =
        (emptied v && everySecret emptied v) := by
    intro v hSame hEmptied
    rw [hSame, hEmptied]
    cases hText : noText v with
    | false => rfl
    | true =>
        rw [everySecret_of_noText (fun _ h => h) v hText,
          everySecret_of_noText (fun _ h => emptied_of_noText h) v hText]
  cases value with
  | str s => rfl
  | null => exact hKept _ rfl rfl
  | bool b => exact hKept _ rfl rfl
  | int n => exact hKept _ rfl rfl
  | float literal => exact hKept _ rfl rfl
  | arr values => exact hKept _ rfl rfl
  | obj fields => exact hKept _ rfl rfl

mutual

/-- The redactor leaves no text under a credential name exactly when each value there
was one text, or had none. -/
theorem redactCredentials_clean (path : String) : ∀ value,
    everySecret noText (redactCredentials path value).1 = everySecret emptied value
  | .null | .bool _ | .int _ | .float _ | .str _ => by simp [redactCredentials, everySecret]
  | .arr values => by
      simp only [redactCredentials, everySecret]
      exact redactValues_clean path 0 values
  | .obj fields => by
      simp only [redactCredentials, everySecret]
      exact redactFields_clean path fields

theorem redactValues_clean (path : String) (i : Nat) : ∀ values,
    everySecretValues noText (redactValues path i values).1 = everySecretValues emptied values
  | [] => by rw [redactValues, everySecretValues, everySecretValues]
  | value :: rest => by
      simp only [redactValues, everySecretValues]
      rw [redactCredentials_clean _ value, redactValues_clean path (i + 1) rest]

theorem redactFields_clean (path : String) : ∀ fields,
    everySecretFields noText (redactFields path fields).1 = everySecretFields emptied fields
  | [] => by rw [redactFields, everySecretFields, everySecretFields]
  | (key, value) :: rest => by
      cases hSecret : looksSecret key with
      | true =>
          rw [redactFields_secret hSecret]
          simp only [everySecretFields, hSecret, Bool.not_true, Bool.false_or]
          rw [redactSecret_clean value, redactFields_clean path rest]
      | false =>
          rw [redactFields_other hSecret]
          simp only [everySecretFields, hSecret, Bool.not_false, Bool.true_or, Bool.true_and]
          rw [redactCredentials_clean _ value, redactFields_clean path rest]

end

theorem keepsRest_redactSecret (value : Json) :
    keepsRest true value (redactSecret value) = true := by
  cases value with
  | str s => simp [redactSecret, keepsRest]
  | _ => exact keepsRest_self true _

mutual

/-- Everything else, and the shape, is unchanged. -/
theorem redactCredentials_keepsRest (path : String) : ∀ value,
    keepsRest false value (redactCredentials path value).1 = true
  | .null | .bool _ | .int _ | .float _ | .str _ => by simp [redactCredentials, keepsRest]
  | .arr values => by
      simp only [redactCredentials, keepsRest]
      exact redactValues_keepsRest path 0 values
  | .obj fields => by
      simp only [redactCredentials, keepsRest]
      exact redactFields_keepsRest path fields

theorem redactValues_keepsRest (path : String) (i : Nat) : ∀ values,
    keepsRestValues false values (redactValues path i values).1 = true
  | [] => by rw [redactValues, keepsRestValues]
  | value :: rest => by
      simp only [redactValues, keepsRestValues]
      rw [redactCredentials_keepsRest _ value, redactValues_keepsRest path (i + 1) rest,
        Bool.and_self]

theorem redactFields_keepsRest (path : String) : ∀ fields,
    keepsRestFields false fields (redactFields path fields).1 = true
  | [] => by rw [redactFields, keepsRestFields]
  | (key, value) :: rest => by
      cases hSecret : looksSecret key with
      | true =>
          rw [redactFields_secret hSecret]
          simp only [keepsRestFields, hSecret, beq_self_eq_true, Bool.false_or, Bool.true_and]
          rw [keepsRest_redactSecret value, redactFields_keepsRest path rest, Bool.and_self]
      | false =>
          rw [redactFields_other hSecret]
          simp only [keepsRestFields, hSecret, beq_self_eq_true, Bool.false_or, Bool.true_and]
          rw [redactCredentials_keepsRest _ value, redactFields_keepsRest path rest, Bool.and_self]

end

/-! ### The whole configuration -/

/-- The redactor keeps the keys of a mapping. -/
theorem redactFields_keys (path : String) (fields : Fields) :
    (redactFields path fields).1.map Prod.fst = fields.map Prod.fst := by
  induction fields with
  | nil => rw [redactFields]
  | cons field rest ih =>
      obtain ⟨key, value⟩ := field
      cases hSecret : looksSecret key with
      | true => rw [redactFields_secret hSecret, List.map_cons, List.map_cons, ih]
      | false => rw [redactFields_other hSecret, List.map_cons, List.map_cons, ih]

/-- A block that is put back at the end is the only one of its name. -/
theorem withoutCloud_setEntry {fields : Fields} (h : "cloud" ∉ fields.map Prod.fst)
    (cloudBlock : Json) :
    withoutCloud (PyDict.setEntry "cloud" cloudBlock fields) = withoutCloud fields := by
  induction fields with
  | nil => rfl
  | cons field rest ih =>
      rw [List.map_cons, List.mem_cons, not_or] at h
      have hOther : (field.1 != "cloud") = true := bne_iff_ne.mpr (Ne.symm h.1)
      rw [PyDict.setEntry, if_neg (Ne.symm h.1)]
      simp only [withoutCloud, List.filter_cons, hOther, if_true] at ih ⊢
      rw [ih h.2]

theorem withoutCloud_of_notMem {fields : Fields} (h : "cloud" ∉ fields.map Prod.fst) :
    withoutCloud fields = fields := by
  rw [withoutCloud, List.filter_eq_self]
  intro field hField
  rw [bne_iff_ne]
  rintro hCloud
  exact h (hCloud ▸ List.mem_map_of_mem hField)

theorem withoutCloud_redactedConfig (config : Fields) :
    withoutCloud (redactedConfig config) = (redactFields "" (withoutCloud config)).1 := by
  have hKeys : "cloud" ∉ (redactFields "" (withoutCloud config)).1.map Prod.fst := by
    rw [redactFields_keys, withoutCloud, List.mem_map]
    rintro ⟨field, hField, hCloud⟩
    rw [List.mem_filter, hCloud] at hField
    exact absurd hField.2 (by decide)
  unfold redactedConfig
  dsimp only
  split
  · exact withoutCloud_of_notMem hKeys
  · exact withoutCloud_of_notMem hKeys
  · rw [withoutCloud_setEntry hKeys, withoutCloud_of_notMem hKeys]

/-- The archive has no text under a credential name, and all else as it was, exactly when
no list or mapping with a text stood under such a name. -/
theorem archive_clean_iff (config : Fields) :
    (everySecret noText (.obj (withoutCloud (redactedConfig config))) = true ∧
        keepsRest false (.obj (withoutCloud config))
          (.obj (withoutCloud (redactedConfig config))) = true) ↔
      everySecret emptied (.obj (withoutCloud config)) = true := by
  have hClean := redactFields_clean "" (withoutCloud config)
  have hRest := redactFields_keepsRest "" (withoutCloud config)
  rw [withoutCloud_redactedConfig, everySecret, everySecret, keepsRest, hClean]
  exact and_iff_left hRest

/-- An exporter with its login. -/
def loginConfig : Fields :=
  [("exporters", .arr [.obj [("type", .str "mqtt"),
    ("credentials", .obj [("user", .str "solar"), ("pass", .str "hunter2")])]])]

/-- A login that is a mapping goes into the archive as it is. -/
theorem archive_keeps_login :
    redactedConfig loginConfig = loginConfig ∧
      everySecret noText (.obj (withoutCloud (redactedConfig loginConfig))) = false := by
  decide

end WattPost.Backup
