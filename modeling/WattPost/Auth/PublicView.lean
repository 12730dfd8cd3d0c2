import WattPost.Auth.Middleware

/-! The two scopes without a login, compared. A wall display's token opens a list of
prefixes of the raw path; the public view closes a list of prefixes of the path without
its repeated slashes, and the first list does not know of the second. -/
namespace WattPost.Auth

open PyText

section Paths

theorem startsWith_iff {s p : String} : startsWith s p = true ↔ p.toList <+: s.toList := by
  rw [startsWith, List.isPrefixOf_iff_prefix]

/-- A string starts with what its start starts with. -/
theorem startsWith_trans {s p q : String} (hp : startsWith s p = true)
    (hq : startsWith p q = true) : startsWith s q = true := by
  rw [startsWith_iff] at hp hq ⊢
  exact hq.trans hp

/-- Two starts of one path are comparable. -/
theorem comparable_of_startsWith {path p q : String} (hp : startsWith path p = true)
    (hq : startsWith path q = true) : startsWith p q = true ∨ startsWith q p = true := by
  simp only [startsWith_iff] at hp hq ⊢
  exact List.prefix_or_prefix_of_prefix hq hp

theorem length_squeezeChars_le (c : Char) (xs : List Char) :
    (squeezeChars c xs).length ≤ xs.length := by
  fun_induction squeezeChars c xs with
  | case1 => exact le_rfl
  | case2 => exact le_rfl
  | case3 x y rest hBoth ih => exact ih.trans (Nat.le_succ _)
  | case4 x y rest hBoth ih => exact Nat.succ_le_succ ih

/-- A squeezed path starts with the character that the path starts with. -/
theorem head_squeezeChars (c x : Char) (xs : List Char) :
    ∃ rest, squeezeChars c (x :: xs) = x :: rest := by
  induction xs generalizing x with
  | nil => exact ⟨[], rfl⟩
  | cons y rest ih =>
      rw [squeezeChars]
      split_ifs with hBoth
      · obtain ⟨tail, hTail⟩ := ih y
        exact ⟨tail, by rw [hTail, hBoth.1, hBoth.2]⟩
      · exact ⟨_, rfl⟩

/-- What has no repeated slash is still there at the start when the slashes of the whole
path are made one. -/
theorem prefix_squeezeChars {c : Char} {xs ys : List Char} (hSqueezed : squeezeChars c xs = xs)
    (h : xs <+: ys) : xs <+: squeezeChars c ys := by
  induction xs generalizing ys with
  | nil => exact List.nil_prefix
  | cons x xs ih =>
      obtain ⟨rest, rfl⟩ := h
      cases xs with
      | nil =>
          obtain ⟨tail, hTail⟩ := head_squeezeChars c x rest
          exact ⟨tail, hTail.symm⟩
      | cons y more =>
          by_cases hBoth : x = c ∧ y = c
          · -- two slashes at the start would have been one
            have hShort : (squeezeChars c (x :: y :: more)).length ≤ (y :: more).length := by
              rw [squeezeChars, if_pos hBoth]
              exact length_squeezeChars_le c (y :: more)
            rw [hSqueezed] at hShort
            simp only [List.length_cons] at hShort
            omega
          · rw [squeezeChars, if_neg hBoth, List.cons.injEq] at hSqueezed
            have hTail := ih hSqueezed.2 ⟨rest, rfl⟩
            rw [List.cons_append, List.cons_append, squeezeChars, if_neg hBoth]
            exact List.cons_prefix_cons.mpr ⟨rfl, hTail⟩

theorem startsWith_squeeze {path p : String} (hSqueezed : squeezeChars '/' p.toList = p.toList)
    (h : startsWith path p = true) : startsWith (squeeze path '/') p = true := by
  rw [startsWith_iff] at h ⊢
  rw [squeeze, String.toList_ofList]
  exact prefix_squeezeChars hSqueezed h

end Paths

section Scopes

/-- The requests where the two lists disagree: reads of the configuration of the weather
and of the settings of a device, with the first segments spelled as the kiosk list spells
them. -/
def ReadsConfiguration (method path : String) : Prop :=
  safeMethods.contains (upper method) = true ∧
    (startsWith path "/api/weather" = true ∧
        startsWith (squeeze path '/') "/api/weather/config" = true ∨
      startsWith path "/api/devices" = true ∧
        publicViewDenies (squeeze path '/') "/api/devices/" = true)

instance (method path : String) : Decidable (ReadsConfiguration method path) := by
  unfold ReadsConfiguration
  infer_instance

/-- A denied path starts with the entry that denies it. -/
theorem startsWith_of_denies {path deny : String} (h : publicViewDenies path deny = true) :
    startsWith path (rstrip deny '/') = true := by
  have hStrip : startsWith deny (rstrip deny '/') = true := by
    rw [startsWith_iff, rstrip, String.toList_ofList, rstripBy]
    have hSuffix := List.dropWhile_suffix (· == '/') (l := deny.toList.reverse)
    simpa using List.reverse_prefix.mpr hSuffix
  rw [publicViewDenies] at h
  split_ifs at h
  · exact startsWith_trans (Bool.and_eq_true_iff.mp h).1 hStrip
  · rcases Bool.or_eq_true_iff.mp h with hEq | hStart
    · rw [eq_of_beq hEq, startsWith_iff]
    · exact startsWith_trans hStart hStrip

theorem exists_kiosk_prefix {method path : String} (h : kioskScopeAllows method path = true) :
    ∃ allow ∈ kioskGetPaths, startsWith path allow = true := by
  rw [kioskScopeAllows] at h
  split_ifs at h
  rcases Bool.or_eq_true_iff.mp h with hKiosk | hAny
  · refine ⟨"/kiosk", by decide, ?_⟩
    rw [eq_of_beq hKiosk, startsWith_iff]
  · exact List.any_eq_true.mp hAny

/-- Only two entries of the kiosk list share a path with an entry of the deny list. -/
theorem lists_meet : ∀ allow ∈ kioskGetPaths, ∀ deny ∈ publicViewDenyPrefixes,
    (startsWith allow (rstrip deny '/') = true ∨ startsWith (rstrip deny '/') allow = true) →
      allow = "/api/weather" ∧ deny = "/api/weather/config" ∨
        allow = "/api/devices" ∧ deny = "/api/devices/" := by
  decide +kernel

theorem weatherConfig_rstrip : rstrip "/api/weather/config" '/' = "/api/weather/config" := by
  decide

theorem kioskGetPaths_squeezed : ∀ allow ∈ kioskGetPaths,
    squeezeChars '/' allow.toList = allow.toList := by
  decide

/-- A read of the configuration is in the scope of a wall display. -/
theorem kioskScopeAllows_of_reads {method path : String} (h : ReadsConfiguration method path) :
    kioskScopeAllows method path = true := by
  obtain ⟨hSafe, hPath⟩ := h
  have hStart : ∃ allow ∈ kioskGetPaths, startsWith path allow = true := by
    rcases hPath with ⟨hWeather, -⟩ | ⟨hDevices, -⟩
    · exact ⟨"/api/weather", by decide, hWeather⟩
    · exact ⟨"/api/devices", by decide, hDevices⟩
  rw [kioskScopeAllows, hSafe, Bool.not_true, if_neg Bool.false_ne_true]
  exact Bool.or_eq_true_iff.mpr (Or.inr (List.any_eq_true.mpr hStart))

/-- A nonempty path is what the public view normalises. -/
theorem publicViewAllows_eq {method path : String}
    (hSafe : safeMethods.contains (upper method) = true) (hPath : path ≠ "") :
    publicViewAllows method path =
      ((startsWith (squeeze path '/') "/api/system/" &&
          startsWithAny (squeeze path '/') publicViewSystemAllow) ||
        !publicViewDenyPrefixes.any (publicViewDenies (squeeze path '/'))) := by
  rw [publicViewAllows, hSafe, Bool.not_true, if_neg Bool.false_ne_true, if_neg hPath]
  dsimp only
  split_ifs with hSystem
  · rw [hSystem, Bool.true_or]
  · rw [Bool.eq_false_iff.mpr hSystem, Bool.false_or]

theorem ne_empty_of_startsWith {path p : String} (h : startsWith path p = true) (hp : p ≠ "") :
    path ≠ "" := by
  rintro rfl
  rw [startsWith_iff] at h
  exact hp (String.toList_inj.mp (List.prefix_nil.mp h))

/-- The public view refuses a read of the configuration. -/
theorem publicViewAllows_of_reads {method path : String} (h : ReadsConfiguration method path) :
    publicViewAllows method path = false := by
  obtain ⟨hSafe, hPath⟩ := h
  have hDenied : ∃ deny ∈ publicViewDenyPrefixes,
      publicViewDenies (squeeze path '/') deny = true := by
    rcases hPath with ⟨-, hWeather⟩ | ⟨-, hDevices⟩
    · refine ⟨"/api/weather/config", by decide, ?_⟩
      rw [publicViewDenies, if_neg (by decide), hWeather, Bool.or_true]
    · exact ⟨"/api/devices/", by decide, hDevices⟩
  have hNonempty : path ≠ "" := by
    rcases hPath with ⟨hStart, -⟩ | ⟨hStart, -⟩ <;>
      exact ne_empty_of_startsWith hStart (by decide)
  have hSystem : startsWith (squeeze path '/') "/api/system/" = false := by
    rw [Bool.eq_false_iff]
    intro hSystem
    rcases hPath with ⟨hStart, -⟩ | ⟨hStart, -⟩
    · have hWeather := startsWith_squeeze (by decide) hStart
      exact absurd (comparable_of_startsWith hSystem hWeather) (by decide)
    · have hDevices := startsWith_squeeze (by decide) hStart
      exact absurd (comparable_of_startsWith hSystem hDevices) (by decide)
  rw [publicViewAllows_eq hSafe hNonempty, hSystem, List.any_eq_true.mpr hDenied]
  rfl

/-- What a wall display may read and the public view refuses is the configuration. -/
theorem reads_of_denied {method path : String} (hKiosk : kioskScopeAllows method path = true)
    (hDenied : publicViewAllows method path = false) : ReadsConfiguration method path := by
  have hSafe : safeMethods.contains (upper method) = true := by
    by_contra hUnsafe
    rw [kioskScopeAllows, Bool.eq_false_iff.mpr hUnsafe] at hKiosk
    exact Bool.false_ne_true hKiosk
  obtain ⟨allow, hAllow, hStart⟩ := exists_kiosk_prefix hKiosk
  have hNonempty : path ≠ "" := by
    refine ne_empty_of_startsWith hStart ?_
    rintro rfl
    exact absurd hAllow (by decide)
  rw [publicViewAllows_eq hSafe hNonempty, Bool.or_eq_false_iff, Bool.not_eq_false',
    List.any_eq_true] at hDenied
  obtain ⟨deny, hDeny, hDenies⟩ := hDenied.2
  have hSqueezed := startsWith_squeeze (kioskGetPaths_squeezed allow hAllow) hStart
  have hMeet := comparable_of_startsWith hSqueezed (startsWith_of_denies hDenies)
  rcases lists_meet allow hAllow deny hDeny hMeet with ⟨rfl, rfl⟩ | ⟨rfl, rfl⟩
  · have hConfig := startsWith_of_denies hDenies
    rw [weatherConfig_rstrip] at hConfig
    exact ⟨hSafe, Or.inl ⟨hStart, hConfig⟩⟩
  · exact ⟨hSafe, Or.inr ⟨hStart, hDenies⟩⟩

end Scopes

/-- A wall display's token reads nothing that is withheld from anonymous viewers, except
the configuration of the weather and the settings of the devices. -/
theorem kiosk_public_iff (method path : String) :
    (kioskScopeAllows method path = true → publicViewAllows method path = true) ↔
      ¬ReadsConfiguration method path := by
  constructor
  · intro hContained hReads
    have hAllowed := hContained (kioskScopeAllows_of_reads hReads)
    rw [publicViewAllows_of_reads hReads] at hAllowed
    exact Bool.false_ne_true hAllowed
  · intro hOther hKiosk
    by_contra hNot
    exact hOther (reads_of_denied hKiosk (Bool.eq_false_iff.mpr hNot))

/-- The settings of a battery, with its thresholds, on a wall display. -/
theorem kiosk_reads_settings :
    kioskScopeAllows "GET" "/api/devices/shunt/settings" = true ∧
      publicViewAllows "GET" "/api/devices/shunt/settings" = false := by
  decide +kernel

end WattPost.Auth
