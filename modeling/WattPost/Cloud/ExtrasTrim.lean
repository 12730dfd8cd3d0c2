import Mathlib.Data.List.MinMax
import WattPost.Cloud.Json
import WattPost.Cloud.RecentAlerts
import WattPost.Lib.PyDict

/-! The budget of a heartbeat: as long as its extras are too big as JSON text, the biggest
key that may be missing is shed. -/
namespace WattPost.Cloud.ExtrasTrim

open PyDict (Dict)

/-! ### JSON text -/

/-- `\uXXXX`. -/
def unitEscape (n : Nat) : List Char :=
  ['\\', 'u', Nat.digitChar (n / 4096 % 16), Nat.digitChar (n / 256 % 16),
    Nat.digitChar (n / 16 % 16), Nat.digitChar (n % 16)]

/-- How `json.dumps` writes a character of a string. -/
def asciiChar (c : Char) : List Char :=
  if c = '"' then ['\\', '"']
  else if c = '\\' then ['\\', '\\']
  else if c = '\n' then ['\\', 'n']
  else if c = '\r' then ['\\', 'r']
  else if c = '\t' then ['\\', 't']
  else if c.toNat = 0x0c then ['\\', 'f']
  else if c.toNat = 0x08 then ['\\', 'b']
  else if 0x20 ≤ c.toNat ∧ c.toNat ≤ 0x7e then [c]
  else if c.toNat < 0x10000 then unitEscape c.toNat
  else
    let n := c.toNat - 0x10000
    unitEscape (0xd800 + n / 1024) ++ unitEscape (0xdc00 + n % 1024)

def asciiString (s : String) : List Char := '"' :: s.toList.flatMap asciiChar ++ ['"']

/-- A float: the names for what is no number are not those of `repr`. -/
def asciiFloat (literal : String) : String :=
  if literal = "nan" then "NaN"
  else if literal = "inf" then "Infinity"
  else if literal = "-inf" then "-Infinity"
  else literal

mutual

/-- `json.dumps` with the separators `,` and `:`. -/
def asciiText : Json → List Char
  | .null => "null".toList
  | .bool b => (if b then "true" else "false").toList
  | .int n => (toString n).toList
  | .float literal => (asciiFloat literal).toList
  | .str s => asciiString s
  | .arr values => '[' :: (asciiTexts values ++ [']'])
  | .obj fields => '\x7b' :: (asciiFields fields ++ ['\x7d'])

def asciiTexts : List Json → List Char
  | [] => []
  | [value] => asciiText value
  | value :: next :: rest => asciiText value ++ ',' :: asciiTexts (next :: rest)

def asciiFields : List (String × Json) → List Char
  | [] => []
  | [(name, value)] => asciiString name ++ ':' :: asciiText value
  | (name, value) :: next :: rest =>
      asciiString name ++ ':' :: asciiText value ++ ',' :: asciiFields (next :: rest)

end

/-- `len(json.dumps(fields, separators=(",", ":")).encode("utf-8"))`. -/
def fieldsBytes (fields : List (String × Json)) : Nat :=
  (String.ofList (asciiText (.obj fields))).utf8ByteSize

/-! ### The loop -/

/-- `_EXTRAS_BUDGET`. -/
def extrasBudget : Nat := 7800

/-- `_EXTRAS_KEEP`. -/
def extrasKeep : List String := ["version", "deployment", "kiosk_skin", "alert_count"]

/-- `_extras_bytes`. -/
def extrasBytes (extras : Dict Json) : Nat := fieldsBytes extras.entries

/-- `_ksize`. -/
def keySize (extras : Dict Json) (k : String) : Nat :=
  match extras.get k with
  | some v => fieldsBytes [(k, v)]
  | none => 0

/-- The variables of the loop: the extras, `_alerts_pending_ts` and what was shed. -/
structure Trim where
  extras : Dict Json
  pendingTs : Option Int
  shed : List String

/-- `max(cands, key=_ksize)`: the first of the biggest. -/
def biggest (extras : Dict Json) : Option String :=
  (extras.keys.filter (· ∉ extrasKeep)).argmax (keySize extras)

/-- The body of the loop for the key that it sheds. -/
def Trim.drop (s : Trim) (k : String) : Trim where
  extras := s.extras.filter (· != k)
  pendingTs := if k = "recent_alerts" then none else s.pendingTs
  shed := s.shed ++ [k]

/-- One turn of the loop, if there is another. -/
def Trim.turn (s : Trim) : Option Trim :=
  if extrasBytes s.extras ≤ extrasBudget then none else (biggest s.extras).map s.drop

theorem mem_of_biggest {extras : Dict Json} {k : String} (h : biggest extras = some k) :
    k ∈ extras.keys ∧ k ∉ extrasKeep := by
  have hMem := List.mem_filter.mp (List.argmax_mem h)
  exact ⟨hMem.1, of_decide_eq_true hMem.2⟩

/-- What a turn does. -/
theorem Trim.turn_eq_some {s s' : Trim} (h : s.turn = some s') :
    ∃ k ∈ s.extras.keys, k ∉ extrasKeep ∧ extrasBudget < extrasBytes s.extras ∧ s' = s.drop k := by
  unfold turn at h
  split_ifs at h with hFits
  obtain ⟨k, hBiggest, rfl⟩ := Option.map_eq_some_iff.mp h
  obtain ⟨hKey, hShed⟩ := mem_of_biggest hBiggest
  exact ⟨k, hKey, hShed, Nat.lt_of_not_le hFits, rfl⟩

/-- When there is no other turn. -/
theorem Trim.turn_eq_none {s : Trim} (h : s.turn = none) :
    extrasBytes s.extras ≤ extrasBudget ∨ ∀ k ∈ s.extras.keys, k ∈ extrasKeep := by
  unfold turn at h
  split_ifs at h with hFits
  · exact Or.inl hFits
  · refine Or.inr fun k hk => ?_
    have hNone := List.filter_eq_nil_iff.mp
      (List.argmax_eq_none.mp (Option.map_eq_none_iff.mp h)) k hk
    exact not_not.mp fun hNot => hNone (decide_eq_true hNot)

theorem Trim.length_turn {s s' : Trim} (h : s.turn = some s') :
    s'.extras.entries.length < s.extras.entries.length := by
  obtain ⟨k, hKey, -, -, rfl⟩ := turn_eq_some h
  have hPop := Dict.length_pop hKey
  show (s.extras.filter (· != k)).entries.length < _
  omega

/-- The loop. -/
def Trim.run (s : Trim) : Trim :=
  match _h : s.turn with
  | none => s
  | some s' => s'.run
termination_by s.extras.entries.length
decreasing_by exact length_turn _h

/-- The end of `_build_payload`. -/
def trimExtras (extras : Dict Json) (pendingTs : Option Int) : Trim :=
  Trim.run ⟨extras, pendingTs, []⟩

/-- What `heartbeat_once` makes of the cursor once the heartbeat was answered. -/
def promoted (uploadedTs : Int) (pendingTs : Option Int) : Int := pendingTs.getD uploadedTs

/-! ### What the loop sheds -/

/-- The extras without some keys. -/
def without (extras : Dict Json) (ks : List String) : Dict Json := extras.filter (!ks.contains ·)

theorem entries_injective : Function.Injective (Dict.entries (α := Json)) := by
  rintro ⟨entries, _⟩ ⟨_, _⟩ h
  cases h
  rfl

theorem without_nil (extras : Dict Json) : without extras [] = extras := by
  have hAll : extras.entries.filter (fun _ => true) = extras.entries := List.filter_true _
  exact entries_injective hAll

theorem without_cons (extras : Dict Json) (k : String) (ks : List String) :
    without (extras.filter (· != k)) ks = without extras (k :: ks) := by
  refine entries_injective ?_
  show (extras.entries.filter fun e => e.1 != k).filter _ = extras.entries.filter _
  rw [List.filter_filter]
  refine List.filter_congr fun e _ => ?_
  show (!ks.contains e.1 && e.1 != k) = !(k :: ks).contains e.1
  rw [List.contains_cons, Bool.not_or, Bool.and_comm]
  rfl

theorem get_without (extras : Dict Json) (ks : List String) (k : String) :
    (without extras ks).get k = if k ∈ ks then none else extras.get k := by
  rw [without, Dict.get_filter]
  by_cases h : k ∈ ks
  · simp [h]
  · simp [h]

/-- What the loop has done when it stops: it has shed some keys, each of them while the
extras were over the budget and none that is always kept, and it has nothing left to do. -/
structure Sheds (s : Trim) (ks : List String) (s' : Trim) : Prop where
  extras : s'.extras = without s.extras ks
  pendingTs : s'.pendingTs = if "recent_alerts" ∈ ks then none else s.pendingTs
  shed : s'.shed = s.shed ++ ks
  notKept : ∀ k ∈ ks, k ∈ s.extras.keys ∧ k ∉ extrasKeep
  excess : ∀ before k after, ks = before ++ k :: after →
    extrasBudget < extrasBytes (without s.extras before)
  done : s'.turn = none

theorem Sheds.cons {s s' : Trim} {k : String} {ks : List String}
    (hKey : k ∈ s.extras.keys) (hNotKept : k ∉ extrasKeep)
    (hOver : extrasBudget < extrasBytes s.extras) (h : Sheds (s.drop k) ks s') :
    Sheds s (k :: ks) s' where
  extras := h.extras.trans (without_cons s.extras k ks)
  pendingTs := by
    rw [h.pendingTs]
    by_cases hAlerts : k = "recent_alerts"
    · simp [Trim.drop, hAlerts]
    · simp [Trim.drop, hAlerts, Ne.symm hAlerts]
  shed := by
    rw [h.shed, Trim.drop, List.append_assoc]
    rfl
  notKept := by
    refine List.forall_mem_cons.mpr ⟨⟨hKey, hNotKept⟩, fun k' hk' => ?_⟩
    obtain ⟨hLeft, hShed⟩ := h.notKept k' hk'
    exact ⟨(Dict.mem_keys_filter.mp hLeft).1, hShed⟩
  excess := by
    intro before k' after hSplit
    cases before with
    | nil =>
        rw [without_nil]
        exact hOver
    | cons first before =>
        obtain ⟨rfl, rfl⟩ := List.cons.inj hSplit
        rw [← without_cons]
        exact h.excess before k' after rfl
  done := h.done

/-- The loop ends, and has then shed some keys. -/
theorem run_sheds (s : Trim) : ∃ ks, Sheds s ks s.run := by
  fun_induction Trim.run s with
  | case1 s hDone =>
      exact ⟨[], (without_nil _).symm, rfl, (List.append_nil _).symm,
        fun _ h => absurd h List.not_mem_nil, fun before _ _ h => absurd h (by simp), hDone⟩
  | case2 s s' hTurn ih =>
      obtain ⟨ks, hSheds⟩ := ih
      obtain ⟨k, hKey, hNotKept, hOver, rfl⟩ := Trim.turn_eq_some hTurn
      exact ⟨k :: ks, hSheds.cons hKey hNotKept hOver⟩

/-- **Trimming.** Whatever the extras are, the loop ends with extras that fit the budget or
hold only what is always kept; what it keeps is unchanged, and so is everything that is
always kept; it sheds a key only while the extras are over the budget; and where it sheds
the alerts no cursor moves past them. -/
theorem trim_within_budget (extras : Dict Json) (pendingTs : Option Int) (uploadedTs : Int) :
    let r := trimExtras extras pendingTs
    (extrasBytes r.extras ≤ extrasBudget ∨ ∀ k ∈ r.extras.keys, k ∈ extrasKeep) ∧
      (∀ k, r.extras.get k = if k ∈ r.shed then none else extras.get k) ∧
      r.extras.entries.Sublist extras.entries ∧
      (∀ k ∈ r.shed, k ∈ extras.keys ∧ k ∉ extrasKeep) ∧
      (∀ before k after, r.shed = before ++ k :: after →
        extrasBudget < extrasBytes (without extras before)) ∧
      r.pendingTs = (if "recent_alerts" ∈ r.shed then none else pendingTs) ∧
      ("recent_alerts" ∈ r.shed → promoted uploadedTs r.pendingTs = uploadedTs) := by
  intro r
  obtain ⟨ks, h⟩ := run_sheds ⟨extras, pendingTs, []⟩
  have hShed : r.shed = ks := h.shed
  have hExtras : r.extras = without extras ks := h.extras
  have hPending : r.pendingTs = if "recent_alerts" ∈ ks then none else pendingTs := h.pendingTs
  refine ⟨Trim.turn_eq_none h.done, fun k => ?_, ?_, ?_, ?_, ?_, fun hAlerts => ?_⟩
  · rw [hExtras, hShed, get_without]
  · rw [hExtras]
    exact List.filter_sublist
  · rw [hShed]
    exact h.notKept
  · rw [hShed]
    exact h.excess
  · rw [hShed, hPending]
  · rw [hPending, ← hShed, if_pos hAlerts]
    rfl

/-! ### The loop among the heartbeats -/

section Alerts

variable {N V : Type} (render : RecentAlerts.Extra N V → Json)

/-- The extras of a heartbeat as JSON. -/
def rendered (extras : RecentAlerts.Extras N V) : List (String × Json) :=
  extras.map fun e => (e.1, render e.2)

/-- The length of their text. -/
def renderedBytes (extras : RecentAlerts.Extras N V) : Nat := fieldsBytes (rendered render extras)

variable {render} {d : Dict Json} {extras : RecentAlerts.Extras N V}

theorem keySize_eq (h : d.entries = rendered render extras) {e : String × RecentAlerts.Extra N V}
    (he : e ∈ extras) : keySize d e.1 = renderedBytes render [e] := by
  have hMem : (e.1, render e.2) ∈ d.entries := h ▸ List.mem_map_of_mem he
  rw [keySize, PyDict.Dict.mem_iff_get.mp hMem]
  rfl

/-- A loop that remembers the bigger of two extras finds the key of the biggest. -/
theorem foldl_bigger (h : d.entries = rendered render extras)
    {bigger : Option (String × RecentAlerts.Extra N V) → String × RecentAlerts.Extra N V →
      Option (String × RecentAlerts.Extra N V)}
    (hNone : ∀ e, bigger none e = some e)
    (hSome : ∀ b e, bigger (some b) e =
      if renderedBytes render [b] < renderedBytes render [e] then some e else some b)
    {xs : RecentAlerts.Extras N V} {best : Option (String × RecentAlerts.Extra N V)}
    (hxs : ∀ e ∈ xs, e ∈ extras) (hBest : ∀ b ∈ best, b ∈ extras) :
    (xs.foldl bigger best).map Prod.fst =
      (xs.map Prod.fst).foldl (List.argAux fun b c => keySize d c < keySize d b)
        (best.map Prod.fst) := by
  induction xs generalizing best with
  | nil => rfl
  | cons e xs ih =>
      obtain ⟨he, hxs⟩ := List.forall_mem_cons.mp hxs
      rw [List.foldl_cons, List.map_cons, List.foldl_cons]
      cases best with
      | none =>
          rw [hNone]
          exact ih hxs fun b hb => Option.some.inj hb ▸ he
      | some b =>
          have hb := hBest b rfl
          simp only [hSome, Option.map_some, List.argAux, keySize_eq h he, keySize_eq h hb]
          split_ifs
          · exact ih hxs fun c hc => Option.some.inj hc ▸ he
          · exact ih hxs fun c hc => Option.some.inj hc ▸ hb

/-- The same key is the biggest. -/
theorem biggest_eq (h : d.entries = rendered render extras) :
    RecentAlerts.biggest (renderedBytes render) extras = biggest d := by
  have hKeys : (extras.filter fun e => !RecentAlerts.extrasKeep.contains e.1).map Prod.fst =
      d.keys.filter (· ∉ extrasKeep) := by
    rw [PyDict.Dict.keys, h, rendered, List.map_map]
    show _ = (extras.map Prod.fst).filter _
    rw [List.filter_map]
    refine congrArg _ (List.filter_congr fun e _ => ?_)
    simp [RecentAlerts.extrasKeep, extrasKeep]
  have hNothing : ∀ b ∈ (none : Option (String × RecentAlerts.Extra N V)), b ∈ extras :=
    fun b hb => absurd hb (Option.not_mem_none b)
  rw [RecentAlerts.biggest, foldl_bigger h ?_ ?_ (fun e he => List.mem_of_mem_filter he)
    hNothing, hKeys]
  · rfl
  · exact fun _ => rfl
  · exact fun _ _ => rfl

theorem run_of_none {s : Trim} (h : s.turn = none) : s.run = s := by
  rw [Trim.run]
  split
  next => rfl
  next hTurn => cases h.symm.trans hTurn

theorem run_of_some {s s' : Trim} (h : s.turn = some s') : s.run = s'.run := by
  rw [Trim.run]
  split
  next hTurn => cases h.symm.trans hTurn
  next hTurn => rw [Option.some.inj (h.symm.trans hTurn)]

/-- The heartbeats of the alerts trim with this loop. -/
theorem shed_eq_trimExtras {fuel : Nat} (hFuel : extras.length ≤ fuel)
    (h : d.entries = rendered render extras) (pendingTs : Option Int) (shed : List String) :
    rendered render (RecentAlerts.shed (renderedBytes render) fuel extras pendingTs).1 =
        (Trim.run ⟨d, pendingTs, shed⟩).extras.entries ∧
      (RecentAlerts.shed (renderedBytes render) fuel extras pendingTs).2 =
        (Trim.run ⟨d, pendingTs, shed⟩).pendingTs := by
  induction fuel generalizing extras d pendingTs shed with
  | zero =>
      have hNil := List.length_eq_zero_iff.mp (Nat.le_zero.mp hFuel)
      have hTurn : Trim.turn ⟨d, pendingTs, shed⟩ = none := by
        cases hSome : Trim.turn ⟨d, pendingTs, shed⟩ with
        | none => rfl
        | some s' =>
            have hLess := Trim.length_turn hSome
            rw [h, hNil] at hLess
            exact absurd hLess (Nat.not_lt_zero _)
      rw [run_of_none hTurn]
      exact ⟨h.symm, rfl⟩
  | succ fuel ih =>
      have hBytes : renderedBytes render extras = extrasBytes d := congrArg fieldsBytes h.symm
      have hBiggest := biggest_eq h
      have hBudget : RecentAlerts.extrasBudget = extrasBudget := rfl
      rw [RecentAlerts.shed, hBytes, hBiggest, hBudget]
      by_cases hFits : extrasBytes d ≤ extrasBudget
      · have hTurn : Trim.turn ⟨d, pendingTs, shed⟩ = none := by
          rw [Trim.turn, if_pos hFits]
        rw [if_pos hFits, run_of_none hTurn]
        exact ⟨h.symm, rfl⟩
      · have hTurn : Trim.turn ⟨d, pendingTs, shed⟩ =
            (biggest d).map (Trim.drop ⟨d, pendingTs, shed⟩) := by
          rw [Trim.turn, if_neg hFits]
        rw [if_neg hFits]
        cases hKey : biggest d with
        | none =>
            rw [hKey] at hTurn
            rw [run_of_none hTurn]
            exact ⟨h.symm, rfl⟩
        | some k =>
            rw [hKey] at hTurn
            rw [run_of_some hTurn]
            have hLeft : (d.filter (· != k)).entries =
                rendered render (extras.filter fun e => e.1 ≠ k) := by
              show d.entries.filter _ = _
              rw [h, rendered, rendered, List.filter_map]
              refine congrArg _ (List.filter_congr fun e _ => ?_)
              simp [bne, beq_eq_decide]
            have hPop := PyDict.Dict.length_pop (mem_of_biggest hKey).1
            have hLength : (extras.filter fun e => e.1 ≠ k).length < extras.length := by
              have hMapped := congrArg List.length hLeft
              have hAll := congrArg List.length h
              rw [rendered, List.length_map] at hMapped hAll
              omega
            exact ih (by omega) hLeft _ _

end Alerts

end WattPost.Cloud.ExtrasTrim
