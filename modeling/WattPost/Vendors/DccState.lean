import WattPost.Vendors.SettingsWrite

/-! The state section of the DCC50S: three words from register 288, and what
`_parse_state` makes of the reply that carries them. -/
namespace WattPost.Vendors.Renogy.Dcc

open PyDict

/-! ### The reply -/

/-- The reply to the read of the state section. -/
def stateReply (slaveId : UInt8) (r288 r289 r290 : UInt16) : Bytes :=
  Modbus.readReply slaveId 3 [r288.toNat, r289.toNat, r290.toNat]

/-- A single byte of a reply that has it. -/
theorem whole_one {bs : Bytes} {offset : Nat} {b : UInt8} (h : bs[offset]? = some b) :
    whole bs offset 1 = b.toNat := by
  obtain ⟨hLt, rfl⟩ := List.getElem?_eq_some_iff.mp h
  have hTake : (bs.drop offset).take 1 = [bs[offset]] := by
    rw [List.drop_eq_getElem_cons hLt]
    rfl
  have hByte : fromBytes [bs[offset]] false = (bs[offset].toNat : Int) := by
    simp [fromBytes]
  have hShort : ¬ bs.length < offset + 1 := by omega
  rw [whole, bytesToInt, if_neg hShort, hTake, hByte, Int.cast_natCast, round_whole, truncate]
  simp

/-- The three bytes that `_parse_state` looks at: the byte count, and the low
bytes of the first two words. -/
theorem whole_stateReply (slaveId : UInt8) (r288 r289 r290 : UInt16) :
    whole (stateReply slaveId r288 r289 r290) 2 1 = 6 ∧
      whole (stateReply slaveId r288 r289 r290) 4 1 = (r288.toNat % 256 : Nat) ∧
      whole (stateReply slaveId r288 r289 r290) 6 1 = (r289.toNat % 256 : Nat) := by
  refine ⟨?_, ?_, ?_⟩
  · rw [whole_one (b := 6) rfl]
    rfl
  · rw [whole_one (b := UInt8.ofNat r288.toNat) rfl, UInt8.toNat_ofNat']
  · rw [whole_one (b := UInt8.ofNat r289.toNat) rfl, UInt8.toNat_ofNat']

/-! ### The first alarm -/

/-- The alarms of the first byte, each with its bit. -/
def firstTable : List (Nat × String) :=
  [(11, "low_temp_shutdown"), (10, "bms_overcharge_protection"), (9, "starter_reverse_polarity"),
    (8, "alternator_over_voltage"), (4, "alternator_over_current"), (3, "controller_over_temp_2")]

/-- Those of the second byte whose bits lie above it. -/
def upperTable : List (Nat × String) := [(12, "solar_reverse_polarity"), (9, "solar_over_voltage")]

/-- The others of the second byte. -/
def lowerTable : List (Nat × String) :=
  [(7, "solar_over_current"), (6, "battery_over_temperature"), (5, "controller_over_temp"),
    (2, "battery_low_voltage"), (1, "battery_over_voltage"), (0, "battery_over_discharge")]

/-- The first entry of a table whose bit is set. -/
def firstSet (table : List (Nat × String)) (n : Nat) : Option (Nat × String) :=
  table.find? fun e => n.testBit e.1

theorem firstSet_eq_none {table : List (Nat × String)} {n : Nat} :
    firstSet table n = none ↔ ∀ bit ∈ table.map Prod.fst, n.testBit bit = false := by
  simp [firstSet]

theorem firstSet_mem {table : List (Nat × String)} {n : Nat} {e : Nat × String}
    (h : firstSet table n = some e) : e ∈ table := List.mem_of_find?_eq_some h

theorem find_alarms (byte1 byte2 : Nat) :
    ((alarms byte1 byte2).find? Prod.snd).map (fun alarm => PyVal.text alarm.1) =
      ((firstSet firstTable byte1).or ((firstSet upperTable byte2).or
        (firstSet lowerTable byte2))).map fun e => PyVal.text e.2 := by
  have hTable : alarms byte1 byte2 =
      firstTable.map (fun e => (e.2, byte1.testBit e.1)) ++
        (upperTable.map (fun e => (e.2, byte2.testBit e.1)) ++
          lowerTable.map fun e => (e.2, byte2.testBit e.1)) := rfl
  simp only [hTable, List.find?_append, List.find?_map, firstSet, Option.map_or, Option.map_map]
  rfl

/-- Values found in a list on which the function tells its members apart. -/
theorem map_eq_map_iff {α β : Type} {l : List α} {f : α → β} (h : (l.map f).Nodup)
    {x y : Option α} (hx : ∀ a ∈ x, a ∈ l) (hy : ∀ a ∈ y, a ∈ l) :
    x.map f = y.map f ↔ x = y := by
  refine ⟨fun hEq => ?_, congrArg _⟩
  cases x with
  | none => exact (Option.map_eq_none_iff.mp hEq.symm).symm
  | some a =>
      obtain ⟨b, rfl, hab⟩ := Option.map_eq_some_iff.mp hEq.symm
      rw [List.inj_on_of_nodup_map h (hx a rfl) (hy b rfl) hab.symm]

/-- Bits from 8 on are not in a byte. -/
theorem testBit_mod_256 (n bit : Nat) :
    (n % 256).testBit bit = (decide (bit < 8) && n.testBit bit) :=
  Nat.testBit_mod_two_pow n 8 bit

theorem firstSet_lowerTable_mod (n : Nat) :
    firstSet lowerTable (n % 256) = firstSet lowerTable n := by
  simp [firstSet, lowerTable, testBit_mod_256, List.find?_cons]

theorem firstSet_upperTable_mod (n : Nat) : firstSet upperTable (n % 256) = none := by
  simp [firstSet, upperTable, testBit_mod_256]

/-! ### The charging state -/

theorem nameOf_eq_text {table : List (ℚ × String)} {n : ℚ} {name : String}
    (h : nameOf table n = .text name) : (n, name) ∈ table := by
  unfold nameOf at h
  split at h
  · next found hFound =>
      obtain ⟨before, after, hTable, -⟩ := List.lookup_eq_some_iff.mp hFound
      cases h
      rw [hTable]
      exact List.mem_append_right before (List.mem_cons_self ..)
  · cases h

/-- Only the state 6 has its name. -/
theorem nameOf_chargingState_eq_six {n : ℚ} :
    nameOf chargingState 6 = nameOf chargingState n ↔ n = 6 := by
  constructor
  · intro h
    have hName : nameOf chargingState n = .text "current_limiting" := h.symm.trans rfl
    have hMem := nameOf_eq_text hName
    simpa [chargingState] using hMem
  · rintro rfl
    rfl

/-! ### What is decoded -/

/-- What the reply's words say: the low byte of the first is the charging state,
and the alarms are bits of the other two. -/
def DecodesState (slaveId : UInt8) (r288 r289 r290 : UInt16) : Prop :=
  let state := parseState (stateReply slaveId r288 r289 r290)
  state.get "charging_state" = some (nameOf chargingState (r288.toNat % 256 : Nat)) ∧
    state.get "error" =
      ((alarms r289.toNat r290.toNat).find? Prod.snd).map fun alarm => .text alarm.1
deriving Decidable

/-- When the offsets of `_parse_state` hit the right bytes by chance: the charging
state is 6, which is also the byte count; none of the bits that a single byte
cannot hold or that 6 lacks is set; and the first alarm among the low bits is
the same in the second and the third word. -/
def ReadsByChance (r288 r289 r290 : UInt16) : Prop :=
  r288.toNat % 256 = 6 ∧
    (∀ bit ∈ [11, 10, 9, 8, 4, 3], r289.toNat.testBit bit = false) ∧
    (∀ bit ∈ [12, 9], r290.toNat.testBit bit = false) ∧
    [7, 6, 5, 2, 1, 0].find? r289.toNat.testBit = [7, 6, 5, 2, 1, 0].find? r290.toNat.testBit

/-- What `_parse_state` returns on every reply: always the same charging state, and
alarms looked for in the wrong words. -/
theorem get_parseState (slaveId : UInt8) (r288 r289 r290 : UInt16) :
    let state := parseState (stateReply slaveId r288 r289 r290)
    state.get "charging_state" = some (nameOf chargingState 6) ∧
      state.get "error" =
        ((firstSet firstTable (r288.toNat % 256)).or (firstSet lowerTable r289.toNat)).map
          fun e => .text e.2 := by
  obtain ⟨hState, hFirst, hSecond⟩ := whole_stateReply slaveId r288 r289 r290
  have hAlarm := find_alarms (r288.toNat % 256) (r289.toNat % 256)
  rw [firstSet_upperTable_mod, Option.none_or, firstSet_lowerTable_mod] at hAlarm
  simp only [parseState, hState, hFirst, hSecond, Dict.get_setSome, Rat.num_natCast,
    Int.toNat_natCast]
  refine ⟨rfl, ?_⟩
  rw [if_pos trivial, hAlarm]
  exact Option.or_none

/-- The first low bit decides the first low alarm. -/
theorem firstSet_lowerTable_inj {m n : Nat} :
    firstSet lowerTable m = firstSet lowerTable n ↔
      [7, 6, 5, 2, 1, 0].find? m.testBit = [7, 6, 5, 2, 1, 0].find? n.testBit := by
  have hBits : ∀ n : Nat,
      [7, 6, 5, 2, 1, 0].find? n.testBit = (firstSet lowerTable n).map Prod.fst := by
    intro n
    rw [show [7, 6, 5, 2, 1, 0] = lowerTable.map Prod.fst from rfl, List.find?_map]
    rfl
  have hNodup : (lowerTable.map Prod.fst).Nodup := by decide
  rw [hBits, hBits, map_eq_map_iff hNodup (fun _ => firstSet_mem) (fun _ => firstSet_mem)]

/-- A low alarm is the first one of the two words just when no other is active. -/
theorem firstSet_lowerTable_eq_or {m b c : Nat} :
    firstSet lowerTable m = (firstSet firstTable b).or ((firstSet upperTable c).or
        (firstSet lowerTable c)) ↔
      firstSet firstTable b = none ∧ firstSet upperTable c = none ∧
        firstSet lowerTable m = firstSet lowerTable c := by
  have hDisjoint : List.Disjoint lowerTable (firstTable ++ upperTable) := by
    intro e he
    revert e
    decide
  cases hFirst : firstSet firstTable b with
  | some e =>
      refine ⟨fun h => ?_, fun h => nomatch h.1⟩
      exact (hDisjoint (firstSet_mem h) (List.mem_append_left _ (firstSet_mem hFirst))).elim
  | none =>
      cases hUpper : firstSet upperTable c with
      | some e =>
          refine ⟨fun h => ?_, fun h => nomatch h.2.1⟩
          exact (hDisjoint (firstSet_mem h) (List.mem_append_right _ (firstSet_mem hUpper))).elim
      | none => simp

/-- The reply is decoded right exactly by chance. -/
theorem decodesState_iff (slaveId : UInt8) (r288 r289 r290 : UInt16) :
    DecodesState slaveId r288 r289 r290 ↔ ReadsByChance r288 r289 r290 := by
  obtain ⟨hState, hError⟩ := get_parseState slaveId r288 r289 r290
  have hNames : ((firstTable ++ (upperTable ++ lowerTable)).map
      fun e => PyVal.text e.2).Nodup := by decide
  have hMem : ∀ {b c d : Nat}, ∀ e ∈ (firstSet firstTable b).or ((firstSet upperTable c).or
      (firstSet lowerTable d)), e ∈ firstTable ++ (upperTable ++ lowerTable) := by
    intro b c d e he
    simp only [List.mem_append]
    rcases Option.or_eq_some_iff.mp he with h | ⟨-, h⟩
    · exact Or.inl (firstSet_mem h)
    · rcases Option.or_eq_some_iff.mp h with h | ⟨-, h⟩
      · exact Or.inr (Or.inl (firstSet_mem h))
      · exact Or.inr (Or.inr (firstSet_mem h))
  have hSame : (r288.toNat % 256 : Nat) = (6 : ℚ) ↔ r288.toNat % 256 = 6 := by
    exact_mod_cast Iff.rfl
  unfold DecodesState ReadsByChance
  simp only [hState, hError, Option.some.injEq, nameOf_chargingState_eq_six, hSame]
  refine and_congr_right fun hSix => ?_
  -- the byte count's own bits are none of the first table's
  have hNone : firstSet firstTable (r288.toNat % 256) = none := by
    rw [hSix]
    decide
  have hLower : ∀ e ∈ firstSet lowerTable r289.toNat,
      e ∈ firstTable ++ (upperTable ++ lowerTable) := fun e he =>
    List.mem_append_right _ (List.mem_append_right _ (firstSet_mem he))
  rw [hNone, Option.none_or, find_alarms, map_eq_map_iff hNames hLower hMem,
    firstSet_lowerTable_eq_or, firstSet_eq_none, firstSet_eq_none, firstSet_lowerTable_inj]
  rfl

/-- A charger on solar power is reported as limiting its current. -/
theorem mppt_not_decoded : ¬ ∀ (slaveId : UInt8) (r288 r289 r290 : UInt16),
    DecodesState slaveId r288 r289 r290 := by
  intro h
  have hMppt := (h 1 2 0 0).1
  rw [(get_parseState 1 2 0 0).1] at hMppt
  revert hMppt
  decide

end WattPost.Vendors.Renogy.Dcc
