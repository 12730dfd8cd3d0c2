import Mathlib.Data.List.Perm.Basic
import WattPost.Outputs.SolarPause
import WattPost.Storage.BankLatest
import WattPost.Storage.BankPresence

/-! The bank that the solar-pause controller sees. `_read_bank_snapshot` makes its own bank
out of `get_latest`, and `record_poll` has made one out of the answers of the poll. The two
agree where both look at the same monitors with the same figures. -/
namespace WattPost.Outputs.PauseBank

open Keyed PyDict Storage Runs
open SolarPause (BankSnapshot)
open Vendors (PollDict)

/-! ### The snapshot -/

/-- The SoC and the net power of a shunt, if it has an SoC. -/
def shuntFigures (shunt : PollDict) : Option (Option (ℚ × ℚ)) := do
  let v ← PyVal.floatOr (shunt.get "voltage_v") (some 0)
  let i ← PyVal.floatOr (shunt.get "current_a") (some 0)
  if PyVal.isSome (shunt.get "soc_pct") then
    let soc ← PyVal.float (shunt.get "soc_pct")
    let netW ← floatUnlessNone (shunt.get "power_w") (v * i)
    some (some (soc, netW))
  else some none

/-- The SoC and the net power of the batteries, if they have a capacity. -/
def packFigures (batts : List PollDict) : Option (Option (ℚ × ℚ)) :=
  if batts.isEmpty then some none
  else do
    let cap ← sumFloats "capacity_ah" batts
    let rem ← sumFloats "remaining_charge_ah" batts
    let sumV ← sumFloats "voltage_v" batts
    let sumI ← sumFloats "current_a" batts
    some (if 0 < cap then some (rem / cap * 100, sumV / batts.length * sumI) else none)

/-- A shunt first, and else the batteries. -/
def bankFigures (latest : List PollDict) : Option (Option (ℚ × ℚ)) :=
  match latest.find? isShunt with
  | some shunt => shuntFigures shunt
  | none => packFigures (latest.filter isBattery)

/-- `pv_w`. -/
def pvActiveW (latest : List PollDict) : Option ℚ :=
  ((latest.filter fun d => kind d = "charge_controller" || kind d = "dcdc").mapM fun d =>
    PyVal.floatOr (d.get "pv_power_w") (PyVal.floatOr (d.get "power_w") (some 0))).map List.sum

/-- `_read_bank_snapshot`; `none` when it raises. Without a device there is no battery, which
gives no snapshot either. -/
def readBankSnapshot (db : Db ℚ) : Option (Option BankSnapshot) := do
  let latest := (getLatest db).entries.map Prod.snd
  match ← bankFigures latest with
  | none => some none
  | some (soc, netW) => (pvActiveW latest).map fun pv => some ⟨soc, netW, pv⟩

/-- The store after a poll. -/
def afterPoll (s : BankStore) (result : PollResult) (ts : Nat) : Db ℚ :=
  (bankStep s (.recordPoll result ts)).db

/-- The controller sees the bank of the poll: a snapshot has its SoC and its power, and
without a bank there is none. -/
structure SeesBank (s : BankStore) (result : PollResult) (ts : Nat) : Prop where
  same : ∀ bank, bankOf s.settings s.db result.devices ts = some (some bank) →
    ∀ snap, readBankSnapshot (afterPoll s result ts) = some (some snap) →
      bank.view.socPct = some snap.socPct ∧ bank.view.powerW = snap.netW
  without : bankOf s.settings s.db result.devices ts = some none →
    readBankSnapshot (afterPoll s result ts) = some none

/-! ### The monitors on either side -/

/-- `device_meta` has the device with this kind. -/
def KnownAs (db : Db ℚ) (k label : String) : Prop :=
  ∃ row, db.deviceMeta.lookup label = some row ∧ row.kind = k

/-- The shunt that `get_latest` lists first: those without readings come last. -/
structure FirstOnRecord (db : Db ℚ) (label : String) : Prop where
  known : KnownAs db "shunt" label
  listed : Listed db label
  first : ∀ other, KnownAs db "shunt" other → Listed db other → label ≤ other

section Poll

variable (db : Db ℚ) (devices : Dict PollDict) (ts : Nat)

/-- A device that did not answer, and was seen a short time ago. -/
def Silent (k label : String) : Prop :=
  devices.get label = none ∧ ∃ row, db.deviceMeta.lookup label = some row ∧ row.kind = k ∧
    (ts : Int) - row.lastSeen ≤ bankAggregateStaleS

/-- A device that answered under this kind, or is silent. -/
def Present (k label : String) : Prop :=
  (∃ d, devices.get label = some d ∧ kind d = k) ∨ Silent db devices ts k label

/-- The shunt that comes first: in the order of the answers, and behind them by name. -/
def FirstPresent (label : String) : Prop :=
  (∃ front d back, devices.entries = front ++ (label, d) :: back ∧ isShunt d = true ∧
    ∀ e ∈ front, isShunt e.2 = false) ∨
  (∀ e ∈ devices.entries, isShunt e.2 = false) ∧ Silent db devices ts "shunt" label ∧
    ∀ other, Silent db devices ts "shunt" other → label ≤ other

/-- What the bank takes from a device: its answer, or else what is on record. -/
def taken (label key : String) : Option PyVal :=
  match devices.get label with
  | some d => d.get key
  | none => db.reading label key

end Poll

/-- One value, or none on either side. -/
def SameValue (a b : Option PyVal) : Prop :=
  a = b ∨ (PyVal.isSome a = false ∧ PyVal.isSome b = false)

def shuntKeys : List String := ["voltage_v", "current_a", "power_w", "soc_pct"]

def packKeys : List String := ["voltage_v", "current_a", "capacity_ah", "remaining_charge_ah"]

/-- The shunt of the snapshot is the shunt of the bank, with the same figures; and its SoC is
not a zero that the bank takes for a missing one. -/
structure SameShunt (s : BankStore) (result : PollResult) (ts : Nat) (label : String) :
    Prop where
  first : FirstPresent s.db result.devices ts label
  policy : s.settings.policy = .bms →
    ∀ other, ¬Present s.db result.devices ts "smart_battery" other
  figures : ∀ key ∈ shuntKeys, SameValue (taken s.db result.devices label key)
    ((afterPoll s result ts).reading label key)
  zero : PyVal.isSome (taken s.db result.devices label "soc_pct") = true →
    PyVal.truthy (taken s.db result.devices label "soc_pct") = false →
      PyVal.truthy (taken s.db result.devices label "remaining_ah") = false ∨
        (PyVal.truthy (taken s.db result.devices label "bank_capacity_ah") = false ∧
          PyVal.truthy (taken s.db result.devices label "capacity_ah") = false)

/-- The batteries of the snapshot are those of the bank, with the same figures. -/
structure SamePacks (s : BankStore) (result : PollResult) (ts : Nat) : Prop where
  noShunt : ∀ label, ¬Present s.db result.devices ts "shunt" label
  present : ∀ label, KnownAs (afterPoll s result ts) "smart_battery" label ↔
    Present s.db result.devices ts "smart_battery" label
  figures : ∀ label, KnownAs (afterPoll s result ts) "smart_battery" label → ∀ key ∈ packKeys,
    SameValue (taken s.db result.devices label key) ((afterPoll s result ts).reading label key)

/-- Both look at the same monitors: at a shunt where one with readings is on record, and
where none is on record at the batteries, if there are any. -/
structure SameMonitors (s : BankStore) (result : PollResult) (ts : Nat) : Prop where
  shunt : ∀ label, FirstOnRecord (afterPoll s result ts) label → SameShunt s result ts label
  packs : (∀ label, ¬KnownAs (afterPoll s result ts) "shunt" label) →
    (∃ label, KnownAs (afterPoll s result ts) "smart_battery" label) → SamePacks s result ts

/-! ### Equal figures -/

namespace SameValue

variable {a b : Option PyVal} (h : SameValue a b)

include h

theorem floatOr_eq (default : Option ℚ) : PyVal.floatOr a default = PyVal.floatOr b default := by
  rcases h with rfl | ⟨ha, hb⟩
  · rfl
  · have hNot : ∀ {v : Option PyVal}, PyVal.isSome v = false → PyVal.truthy v = false := by
      intro v hv
      unfold PyVal.isSome at hv
      split at hv
      · rfl
      · rfl
      · cases hv
    rw [PyVal.floatOr, PyVal.floatOr, hNot ha, hNot hb]
    rfl

theorem floatUnlessNone_eq (default : ℚ) :
    floatUnlessNone a default = floatUnlessNone b default := by
  rcases h with rfl | ⟨ha, hb⟩
  · rfl
  · rw [floatUnlessNone, floatUnlessNone, ha, hb]
    rfl

end SameValue

/-- The only number that counts as nothing is 0. -/
theorem float_of_falsy {v : Option PyVal} (hFalsy : PyVal.truthy v = false) {q : ℚ}
    (hFloat : PyVal.float v = some q) : q = 0 := by
  rcases v with _ | v
  · cases hFloat
  · cases v with
    | none => cases hFloat
    | bool b =>
        cases b with
        | false => exact (Option.some.inj hFloat).symm
        | true => cases hFalsy
    | num r =>
        obtain rfl : r = q := Option.some.inj hFloat
        simpa [PyVal.truthy] using hFalsy
    | text s =>
        obtain rfl : s = "" := by simpa [PyVal.truthy] using hFalsy
        have hNone : PyVal.float (some (.text "")) = none := by decide
        rw [hNone] at hFloat
        cases hFloat
    | list items => cases hFloat

/-- A shunt with the same figures on both sides gives the same SoC and the same power. -/
theorem shunt_same {d d' : PollDict} (hKeys : ∀ key ∈ shuntKeys, SameValue (d.get key) (d'.get key))
    (hZero : PyVal.isSome (d.get "soc_pct") = true → PyVal.truthy (d.get "soc_pct") = false →
      PyVal.truthy (d.get "remaining_ah") = false ∨
        (PyVal.truthy (d.get "bank_capacity_ah") = false ∧
          PyVal.truthy (d.get "capacity_ah") = false))
    {view : BankView} (hView : shuntView d = some view) {soc netW : ℚ}
    (hFigures : shuntFigures d' = some (some (soc, netW))) :
    view.socPct = some soc ∧ view.powerW = netW := by
  simp only [shuntView, Option.bind_eq_bind, Option.bind_eq_some_iff] at hView
  obtain ⟨v, hV, i, hI, cap, hCap, rem, hRem, soc', hSoc, power, hPower, hEq⟩ := hView
  obtain rfl := Option.some.inj hEq
  simp only [shuntFigures, Option.bind_eq_bind, Option.bind_eq_some_iff] at hFigures
  obtain ⟨v', hV', i', hI', hRest⟩ := hFigures
  rw [← (hKeys "voltage_v" (by decide)).floatOr_eq] at hV'
  rw [← (hKeys "current_a" (by decide)).floatOr_eq] at hI'
  obtain rfl : v = v' := Option.some.inj (hV.symm.trans hV')
  obtain rfl : i = i' := Option.some.inj (hI.symm.trans hI')
  split_ifs at hRest with hSome
  · simp only [Option.bind_eq_some_iff] at hRest
    obtain ⟨soc, hFloat, netW, hNetW, hPair⟩ := hRest
    obtain ⟨rfl, rfl⟩ := Prod.mk.inj (Option.some.inj (Option.some.inj hPair))
    rw [← (hKeys "power_w" (by decide)).floatUnlessNone_eq, hPower] at hNetW
    refine ⟨congrArg some ?_, Option.some.inj hNetW⟩
    have hValue : d.get "soc_pct" = d'.get "soc_pct" := by
      refine (hKeys "soc_pct" (by decide)).resolve_right fun hNone => ?_
      rw [hNone.2] at hSome
      cases hSome
    rw [← hValue] at hFloat hSome
    by_cases hTruthy : PyVal.truthy (d.get "soc_pct") = true
    · rw [PyVal.floatOr, if_pos hTruthy, hFloat] at hSoc
      exact (Option.some.inj hSoc).symm
    · rw [Bool.not_eq_true] at hTruthy
      rw [PyVal.floatOr, hTruthy, if_neg Bool.false_ne_true] at hSoc
      rw [← Option.some.inj hSoc, float_of_falsy hTruthy hFloat]
      rcases hZero hSome hTruthy with hRemaining | ⟨hBank, hOwn⟩
      · -- the charge is computed from the SoC, and is 0 with it
        rw [PyVal.floatOr, hRemaining, if_neg Bool.false_ne_true, PyVal.floatOr, hTruthy,
          if_neg Bool.false_ne_true] at hRem
        have hNothing : rem = 0 := by
          rw [← Option.some.inj hRem]
          simp
        rw [hNothing]
        simp
      · rw [PyVal.floatOr, hBank, if_neg Bool.false_ne_true, PyVal.floatOr, hOwn,
          if_neg Bool.false_ne_true] at hCap
        rw [if_pos (Option.some.inj hCap).symm]
  · cases Option.some.inj hRest

/-! ### Equal packs -/

/-- `sum(f(x) for x in xs)`, where `f` may raise. -/
def sumOf {α : Type} (f : α → Option ℚ) (xs : List α) : Option ℚ := (xs.mapM f).map List.sum

theorem sumOf_cons {α : Type} (f : α → Option ℚ) (x : α) (xs : List α) :
    sumOf f (x :: xs) = (f x).bind fun q => (sumOf f xs).map (q + ·) := by
  rw [sumOf, List.mapM_cons, sumOf]
  cases f x with
  | none => rfl
  | some q => cases List.mapM f xs <;> rfl

/-- The order does not matter. -/
theorem sumOf_perm {α : Type} (f : α → Option ℚ) {xs ys : List α} (hPerm : xs.Perm ys) :
    sumOf f xs = sumOf f ys := by
  induction hPerm with
  | nil => rfl
  | cons x _ ih => rw [sumOf_cons, sumOf_cons, ih]
  | swap x y xs =>
      rw [sumOf_cons, sumOf_cons, sumOf_cons, sumOf_cons]
      cases f x <;> cases f y <;> cases sumOf f xs <;> simp [add_left_comm]
  | trans _ _ ih ih' => exact ih.trans ih'

/-- What the devices have under a key is what their names have. -/
theorem sumFloats_names {key : String} (value : String → Option PyVal)
    {xs : List (String × PollDict)} (h : ∀ e ∈ xs, SameValue (e.2.get key) (value e.1)) :
    sumFloats key (xs.map Prod.snd) =
      sumOf (fun label => PyVal.floatOr (value label) (some 0)) (xs.map Prod.fst) := by
  change sumOf (fun d : PollDict => PyVal.floatOr (d.get key) (some 0)) (xs.map Prod.snd) = _
  induction xs with
  | nil => rfl
  | cons e xs ih =>
      rw [List.map_cons, List.map_cons, sumOf_cons, sumOf_cons, (h e List.mem_cons_self).floatOr_eq,
        ih fun e' he' => h e' (List.mem_cons_of_mem e he')]

/-- The batteries of the bank and of the snapshot: the same SoC and the same power. -/
theorem packs_same {xs ys : List (String × PollDict)} (value : String → String → Option PyVal)
    (hPerm : (xs.map Prod.fst).Perm (ys.map Prod.fst))
    (hXs : ∀ key ∈ packKeys, ∀ e ∈ xs, SameValue (e.2.get key) (value e.1 key))
    (hYs : ∀ key ∈ packKeys, ∀ e ∈ ys, SameValue (e.2.get key) (value e.1 key))
    {view : BankView} (hView : bmsView (xs.map Prod.snd) = some view) {soc netW : ℚ}
    (hFigures : packFigures (ys.map Prod.snd) = some (some (soc, netW))) :
    view.socPct = some soc ∧ view.powerW = netW := by
  have hSums : ∀ key ∈ packKeys,
      sumFloats key (xs.map Prod.snd) = sumFloats key (ys.map Prod.snd) := by
    intro key hKey
    rw [sumFloats_names (fun label => value label key) (hXs key hKey),
      sumFloats_names (fun label => value label key) (hYs key hKey), sumOf_perm _ hPerm]
  have hLength : (xs.map Prod.snd).length = (ys.map Prod.snd).length := by
    simpa using hPerm.length_eq
  simp only [bmsView, Option.bind_eq_bind, Option.bind_eq_some_iff] at hView
  obtain ⟨sumV, hV, sumI, hI, cap, hCap, rem, hRem, hEq⟩ := hView
  obtain rfl := Option.some.inj hEq
  rw [hSums _ (by decide)] at hV hI hCap hRem
  unfold packFigures at hFigures
  split_ifs at hFigures with hEmpty
  · cases Option.some.inj hFigures
  · simp only [hV, hI, hCap, hRem, Option.bind_eq_bind, Option.bind_some] at hFigures
    split_ifs at hFigures with hCapacity
    · obtain ⟨rfl, rfl⟩ := Prod.mk.inj (Option.some.inj (Option.some.inj hFigures))
      rw [hLength, if_neg hCapacity.ne']
      exact ⟨rfl, rfl⟩
    · cases Option.some.inj hFigures

/-! ### The bank of the poll -/

/-- The kind of a device is not among its readings. -/
def NoKindReading (db : Db ℚ) : Prop := ∀ label, db.reading label "_kind" = none

section Bank

variable {db : Db ℚ} {devices : Dict PollDict} {ts : Nat}

theorem kind_of_get {d : PollDict} {k : String} (h : d.get "_kind" = some (.text k)) :
    kind d = k := by
  rw [kind, h]

theorem kind_snapshot (hKind : NoKindReading db) (label : String) (row : DeviceMeta) :
    kind (snapshot db label row) = row.kind := by
  refine kind_of_get ?_
  rw [get_snapshot, hKind label, Option.none_or]
  rfl

theorem silent_iff {e : String × DeviceMeta} (he : e ∈ db.deviceMeta.rows) :
    fillsIn devices.keys ts e = true ↔
      isBankKind e.2.kind = true ∧ Silent db devices ts e.2.kind e.1 := by
  have hRow := Table.lookup_eq_some_iff.mpr (show (e.1, e.2) ∈ db.deviceMeta.rows from he)
  simp only [fillsIn, Bool.and_eq_true, Bool.not_eq_true', decide_eq_true_eq, and_assoc]
  refine and_congr_right fun _ => ?_
  rw [← Bool.not_eq_true, List.contains_iff_mem, ← Dict.get_eq_none_iff]
  refine and_congr_right fun _ => ⟨fun h => ⟨e.2, hRow, rfl, h⟩, fun h => ?_⟩
  obtain ⟨row, hOther, -, hFresh⟩ := h
  rwa [Option.some.inj (hRow.symm.trans hOther)]

theorem get_snapshot_reading {label key : String} (row : DeviceMeta)
    (hKey : PyText.startsWith key "_" = false) :
    (snapshot db label row).get key = db.reading label key := by
  have hOwn : ∀ k ∈ ["_vendor", "_kind", "_slave_id", "_last_seen"], k ∈ latestMetaKeys := by decide
  have hMeta : (Dict.ofList [("_vendor", PyVal.text row.vendor), ("_kind", .text row.kind),
      ("_slave_id", row.slaveId.elim .none fun id => .num id),
      ("_last_seen", .num row.lastSeen)]).get key = none :=
    Dict.get_setAll_of_notMem (fun hMem => notMem_latestMetaKeys hKey (hOwn key hMem)) _
  rw [get_snapshot, hMeta, Option.or_none]

/-- The devices that the bank is made of are present, and give it their figures. -/
theorem mem_augment (hKind : NoKindReading db) {label : String} {d : PollDict}
    (hMem : (label, d) ∈ augmentForBank db devices ts) :
    Present db devices ts (kind d) label ∧
      ∀ key, PyText.startsWith key "_" = false → d.get key = taken db devices label key := by
  rcases List.mem_append.mp hMem with hLive | hFilled
  · have hGet := Dict.mem_iff_get.mp hLive
    exact ⟨Or.inl ⟨d, hGet, rfl⟩, fun key _ => by rw [taken, hGet]⟩
  · obtain ⟨e, he, hEq⟩ := List.mem_map.mp hFilled
    obtain ⟨rfl, rfl⟩ := Prod.mk.inj hEq
    obtain ⟨hRow, hFills⟩ := List.mem_filter.mp he
    obtain ⟨-, hSilent⟩ := (silent_iff hRow).mp hFills
    rw [kind_snapshot hKind]
    refine ⟨Or.inr hSilent, fun key hKey => ?_⟩
    rw [get_snapshot_reading _ hKey, taken, hSilent.1]

theorem present_of_kind (hKind : NoKindReading db) {e : String × PollDict}
    (he : e ∈ augmentForBank db devices ts) {k : String} (hEq : kind e.2 = k) :
    Present db devices ts k e.1 := by
  have hPresent := (mem_augment hKind (show (e.1, e.2) ∈ _ from he)).1
  rwa [hEq] at hPresent

theorem exists_augment (hKind : NoKindReading db) {label k : String} (hBank : isBankKind k = true)
    (hPresent : Present db devices ts k label) :
    ∃ d, (label, d) ∈ augmentForBank db devices ts ∧ kind d = k := by
  rcases hPresent with ⟨d, hGet, hEq⟩ | hSilent
  · exact ⟨d, List.mem_append_left _ (Dict.mem_iff_get.mpr hGet), hEq⟩
  · obtain ⟨row, hLookup, hEq, -⟩ := hSilent.2
    subst hEq
    have hRow := Table.lookup_eq_some_iff.mp hLookup
    refine ⟨snapshot db label row, List.mem_append_right _ ?_, kind_snapshot hKind label row⟩
    exact List.mem_map.mpr ⟨(label, row),
      List.mem_filter.mpr ⟨hRow, (silent_iff hRow).mpr ⟨hBank, hSilent⟩⟩, rfl⟩

theorem filled_sorted (db : Db ℚ) (devices : Dict PollDict) (ts : Nat) :
    (((db.deviceMeta.rows.filter (fillsIn devices.keys ts)).map fun e =>
      (e.1, snapshot db e.1 e.2)).map Prod.fst).Pairwise (· < ·) := by
  rw [List.map_map]
  exact List.pairwise_map.mpr (db.deviceMeta.sorted.filter _)

theorem nodup_augment (db : Db ℚ) (devices : Dict PollDict) (ts : Nat) :
    ((augmentForBank db devices ts).map Prod.fst).Nodup := by
  rw [augmentForBank, List.map_append]
  refine List.nodup_append.mpr ⟨devices.nodup, (filled_sorted db devices ts).imp ne_of_lt, ?_⟩
  rintro label hLive other hFilled rfl
  obtain ⟨e, he, rfl⟩ := List.mem_map.mp hFilled
  obtain ⟨row, hRow, rfl⟩ := List.mem_map.mp he
  obtain ⟨hMem, hFills⟩ := List.mem_filter.mp hRow
  exact Dict.get_eq_none_iff.mp ((silent_iff hMem).mp hFills).2.1 hLive

/-- The names of the devices of a sort. -/
theorem mem_names {p : PollDict → Bool} {xs : List (String × PollDict)} {label : String} :
    label ∈ (xs.filter fun e => p e.2).map Prod.fst ↔ ∃ d, (label, d) ∈ xs ∧ p d = true := by
  constructor
  · intro hMem
    obtain ⟨e, he, rfl⟩ := List.mem_map.mp hMem
    exact ⟨e.2, List.mem_filter.mp he⟩
  · intro hDevice
    obtain ⟨d, hMem⟩ := hDevice
    exact List.mem_map.mpr ⟨(label, d), List.mem_filter.mpr hMem, rfl⟩

/-- In the order of the names, the first device of a sort. -/
theorem find_first {p : PollDict → Bool} {xs : List (String × PollDict)}
    (hSorted : (xs.map Prod.fst).Pairwise (· < ·)) {label : String} {d : PollDict}
    (hMem : (label, d) ∈ xs) (hSort : p d = true) (hFirst : ∀ e ∈ xs, p e.2 = true → label ≤ e.1) :
    (xs.map Prod.snd).find? p = some d := by
  induction xs with
  | nil => cases hMem
  | cons e xs ih =>
      obtain ⟨hHead, hTail⟩ := List.pairwise_cons.mp hSorted
      rw [List.map_cons, List.find?_cons]
      rcases List.mem_cons.mp hMem with rfl | hRest
      · rw [hSort]
      · have hLess : e.1 < label := hHead label (List.mem_map_of_mem hRest)
        have hOther : p e.2 = false := by
          rw [← Bool.not_eq_true]
          exact fun hSame => absurd (hFirst e List.mem_cons_self hSame) hLess.not_ge
        rw [hOther]
        exact ih hTail hRest fun e' he' => hFirst e' (List.mem_cons_of_mem e he')

/-- The first shunt that is present is the shunt of the bank. -/
theorem find_shunt (hKind : NoKindReading db) {label : String}
    (hFirst : FirstPresent db devices ts label) :
    ∃ d, ((augmentForBank db devices ts).map Prod.snd).find? isShunt = some d ∧
      (label, d) ∈ augmentForBank db devices ts := by
  rcases hFirst with ⟨front, d, back, hEntries, hShunt, hFront⟩ | ⟨hNone, hSilent, hFirst⟩
  · refine ⟨d, ?_, List.mem_append_left _ (by simp [hEntries])⟩
    have hBefore : (front.map Prod.snd).find? isShunt = none := by simpa using hFront
    rw [augmentForBank, hEntries, List.map_append, List.map_append, List.append_assoc,
      List.find?_append, hBefore, List.map_cons, List.cons_append, List.find?_cons, hShunt]
    rfl
  · have hLive : (devices.entries.map Prod.snd).find? isShunt = none := by simpa using hNone
    obtain ⟨d, hMem, hShunt⟩ := exists_augment hKind (by decide) (Or.inr hSilent)
    have hFilled : (label, d) ∈ (db.deviceMeta.rows.filter (fillsIn devices.keys ts)).map
        fun e => (e.1, snapshot db e.1 e.2) := by
      refine (List.mem_append.mp hMem).resolve_left fun hMem => ?_
      have hGet := Dict.mem_iff_get.mp hMem
      rw [hSilent.1] at hGet
      cases hGet
    refine ⟨d, ?_, hMem⟩
    rw [augmentForBank, List.map_append, List.find?_append, hLive, Option.none_or]
    refine find_first (filled_sorted db devices ts) hFilled (decide_eq_true hShunt) ?_
    intro e he hSame
    obtain ⟨row, hRow, rfl⟩ := List.mem_map.mp he
    obtain ⟨hMeta, hFills⟩ := List.mem_filter.mp hRow
    have hOther := ((silent_iff hMeta).mp hFills).2
    rw [isShunt, kind_snapshot hKind, decide_eq_true_eq] at hSame
    rw [hSame] at hOther
    exact hFirst row.1 hOther

end Bank

/-! ### The devices of the snapshot -/

section Snapshot

variable {db : Db ℚ}

/-- What `get_latest` says about a device: its kind is the one on record. -/
theorem mem_getLatest (hKind : NoKindReading db) {label : String} {d : PollDict}
    (hMem : (label, d) ∈ (getLatest db).entries) :
    (∀ k, isBankKind k = true → (kind d = k ↔ KnownAs db k label)) ∧
      ∀ key, PyText.startsWith key "_" = false → d.get key = db.reading label key := by
  have hGet := Dict.mem_iff_get.mp hMem
  have hShown : ∀ key, shown (getLatest db) label key = d.get key := fun key => by
    rw [shown, hGet, Option.bind_some]
  refine ⟨fun k hBank => ?_, fun key hKey => ?_⟩
  · have hRow := shown_kind db label
    rw [hShown, hKind label, Option.or_none] at hRow
    unfold KnownAs
    cases hLookup : db.deviceMeta.lookup label with
    | none =>
        rw [hLookup, Option.map_none] at hRow
        rw [kind, hRow]
        constructor
        · intro hEq
          subst hEq
          cases hBank
        · intro hKnown
          obtain ⟨row, hNone, -⟩ := hKnown
          cases hNone
    | some row =>
        rw [hLookup, Option.map_some] at hRow
        rw [kind_of_get hRow]
        refine ⟨fun h => ⟨row, rfl, h⟩, fun hKnown => ?_⟩
        obtain ⟨row', hSame, hEq⟩ := hKnown
        rwa [Option.some.inj hSame]
  · rw [← hShown, shown_getLatest (notMem_latestMetaKeys hKey)]

theorem known_of_kind (hKind : NoKindReading db) {e : String × PollDict}
    (he : e ∈ (getLatest db).entries) {k : String} (hBank : isBankKind k = true)
    (hEq : kind e.2 = k) : KnownAs db k e.1 :=
  ((mem_getLatest hKind (show (e.1, e.2) ∈ _ from he)).1 k hBank).mp hEq

theorem exists_getLatest (hKind : NoKindReading db) {k label : String} (hBank : isBankKind k = true)
    (hKnown : KnownAs db k label) : ∃ d, (label, d) ∈ (getLatest db).entries ∧ kind d = k := by
  obtain ⟨listed, rest, hKeys, -, -, hAll⟩ := keys_getLatest db
  obtain ⟨row, hLookup, hEq⟩ := id hKnown
  have hMem : label ∈ (getLatest db).keys := by
    rw [hKeys, hAll]
    exact Or.inr ⟨row, Table.lookup_eq_some_iff.mp hLookup⟩
  obtain ⟨e, he, rfl⟩ := List.mem_map.mp hMem
  exact ⟨e.2, he, ((mem_getLatest hKind he).1 k hBank).mpr hKnown⟩

/-- Where a shunt is found that has readings, it is the one that is listed first. -/
theorem firstOnRecord_of_split (hKind : NoKindReading db) {front back : List (String × PollDict)}
    {e : String × PollDict} (hEntries : (getLatest db).entries = front ++ e :: back)
    (hShunt : isShunt e.2 = true) (hFront : ∀ e' ∈ front, isShunt e'.2 = false)
    (hListed : Listed db e.1) : FirstOnRecord db e.1 := by
  have hHere : (e.1, e.2) ∈ (getLatest db).entries := by simp [hEntries]
  refine ⟨known_of_kind hKind hHere (by decide) (of_decide_eq_true hShunt), hListed,
    fun other hKnown hOther => ?_⟩
  obtain ⟨listed, rest, hKeys, hSorted, hIff, -⟩ := keys_getLatest db
  obtain ⟨before, after, rfl⟩ := List.append_of_mem ((hIff e.1).mpr hListed)
  have hSplit : front.map Prod.fst ++ e.1 :: back.map Prod.fst =
      before ++ e.1 :: (after ++ rest) := by
    rw [← List.cons_append, ← List.append_assoc, ← hKeys, Dict.keys, hEntries, List.map_append,
      List.map_cons]
  have hNodup := (getLatest db).nodup
  rw [hEntries, List.map_append, List.map_cons] at hNodup
  have hFresh := List.nodup_middle.mp hNodup
  rw [List.nodup_cons, List.mem_append, not_or] at hFresh
  obtain ⟨rfl, -, -⟩ := (List.append_cons_inj_of_notMem hFresh.1.1 hFresh.1.2).mp hSplit
  rcases List.mem_append.mp ((hIff other).mpr hOther) with hBefore | hAfter
  · obtain ⟨e', he', rfl⟩ := List.mem_map.mp hBefore
    have hMem : (e'.1, e'.2) ∈ (getLatest db).entries := by
      rw [hEntries]
      exact List.mem_append_left _ he'
    have hSame := ((mem_getLatest hKind hMem).1 "shunt" (by decide)).mpr hKnown
    have hNot := hFront e' he'
    rw [isShunt, hSame] at hNot
    cases hNot
  · rcases List.mem_cons.mp hAfter with rfl | hLater
    · exact le_refl _
    · exact ((List.pairwise_cons.mp (List.pairwise_append.mp hSorted).2.1).1 other hLater).le

/-- A snapshot of a shunt is one of the shunt that is listed first. -/
theorem find_listed (hKind : NoKindReading db) {d : PollDict}
    (hFind : ((getLatest db).entries.map Prod.snd).find? isShunt = some d) :
    (∃ label, FirstOnRecord db label ∧ (label, d) ∈ (getLatest db).entries) ∨
      shuntFigures d = some none := by
  rw [List.find?_map, Option.map_eq_some_iff] at hFind
  obtain ⟨e, hFound, rfl⟩ := hFind
  obtain ⟨hShunt, front, back, hEntries, hFront⟩ := List.find?_eq_some_iff_append.mp hFound
  have hHere : (e.1, e.2) ∈ (getLatest db).entries := by simp [hEntries]
  by_cases hListed : Listed db e.1
  · exact Or.inl ⟨e.1, firstOnRecord_of_split hKind hEntries hShunt
      (fun e' he' => by simpa using hFront e' he') hListed, hHere⟩
  · right
    have hNone : ∀ key, PyText.startsWith key "_" = false → e.2.get key = none := by
      intro key hKey
      rw [(mem_getLatest hKind hHere).2 key hKey]
      exact Option.not_isSome_iff_eq_none.mp fun hSome => hListed ⟨key, hSome⟩
    simp only [shuntFigures, hNone "voltage_v" (by decide), hNone "current_a" (by decide),
      hNone "soc_pct" (by decide)]
    rfl

/-- A battery in `get_latest` is on record. -/
theorem known_of_battery (hKind : NoKindReading db) {d : PollDict}
    (hMem : d ∈ ((getLatest db).entries.map Prod.snd).filter isBattery) :
    ∃ label, KnownAs db "smart_battery" label := by
  obtain ⟨hEntry, hBattery⟩ := List.mem_filter.mp hMem
  obtain ⟨e, he, rfl⟩ := List.mem_map.mp hEntry
  exact ⟨e.1, known_of_kind hKind he (by decide) (of_decide_eq_true hBattery)⟩

theorem noShunt_of_find (hKind : NoKindReading db)
    (hFind : ((getLatest db).entries.map Prod.snd).find? isShunt = none) (label : String) :
    ¬KnownAs db "shunt" label := by
  intro hKnown
  obtain ⟨d, hMem, hEq⟩ := exists_getLatest hKind (by decide) hKnown
  exact List.find?_eq_none.mp hFind d (List.mem_map_of_mem hMem) (decide_eq_true hEq)

end Snapshot

/-! ### One poll -/

/-- The view of the bank is the one that the policy chooses. -/
theorem view_of_aggregate {settings : BankSettings} {sel : BankDevices}
    {bank : Option BankAggregate} (h : aggregateBank settings sel = some bank) :
    ∃ bms shunt inverter controller,
      (if sel.batts.isEmpty then some none else (bmsView sel.batts).map some) = some bms ∧
      viewOf shuntView sel.shunt = some shunt ∧
      bank.map BankAggregate.view =
        (chooseView settings.policy shunt bms inverter controller).map Prod.snd := by
  by_cases hEmpty : sel.batts.isEmpty = true
  · simp only [aggregateBank, hEmpty, if_true, Option.bind_eq_bind, Option.bind_some,
      Option.bind_eq_some_iff] at h
    obtain ⟨shunt, hShunt, inverter, -, controller, -, hBank⟩ := h
    refine ⟨none, shunt, inverter, controller, if_pos hEmpty, hShunt, ?_⟩
    rw [← Option.some.inj hBank, Option.map_map]
    rfl
  · simp only [aggregateBank, hEmpty, if_false, Option.bind_eq_bind, Option.bind_eq_some_iff,
      Bool.false_eq_true] at h
    obtain ⟨cells, -, bms, hBms, shunt, hShunt, inverter, -, controller, -, hBank⟩ := h
    refine ⟨bms, shunt, inverter, controller, (if_neg hEmpty).trans hBms, hShunt, ?_⟩
    rw [← Option.some.inj hBank, Option.map_map]
    rfl

theorem bank_of_shunt {settings : BankSettings} {devices : List PollDict}
    {bank : Option BankAggregate} (h : computeBankAggregate settings devices = some bank)
    {d : PollDict} (hFind : devices.find? isShunt = some d)
    (hPolicy : settings.policy = .bms → devices.filter isBattery = []) :
    ∃ b, bank = some b ∧ shuntView d = some b.view := by
  obtain ⟨bms, shunt, inverter, controller, hBms, hShunt, hView⟩ := view_of_aggregate h
  simp only [selectBank, hFind, viewOf, Option.map_eq_some_iff] at hShunt
  obtain ⟨view, hShuntView, rfl⟩ := hShunt
  have hChosen : (chooseView settings.policy (some view) bms inverter controller).map Prod.snd =
      some view := by
    cases hCase : settings.policy with
    | auto => rfl
    | shunt => rfl
    | bms =>
        simp only [selectBank, hPolicy hCase, List.isEmpty_nil, if_true, Option.some.injEq] at hBms
        subst hBms
        rfl
  rw [hChosen, Option.map_eq_some_iff] at hView
  obtain ⟨b, rfl, rfl⟩ := hView
  exact ⟨b, rfl, hShuntView⟩

theorem bank_of_packs {settings : BankSettings} {devices : List PollDict}
    {bank : Option BankAggregate} (h : computeBankAggregate settings devices = some bank)
    (hFind : devices.find? isShunt = none) (hBatts : devices.filter isBattery ≠ []) :
    ∃ b, bank = some b ∧ bmsView (devices.filter isBattery) = some b.view := by
  obtain ⟨bms, shunt, inverter, controller, hBms, hShunt, hView⟩ := view_of_aggregate h
  simp only [selectBank, hFind, viewOf, Option.some.injEq] at hShunt
  subst hShunt
  rw [if_neg (by simpa [selectBank] using hBatts), Option.map_eq_some_iff] at hBms
  obtain ⟨view, hPacks, rfl⟩ := hBms
  have hChosen : (chooseView settings.policy none (some view) inverter controller).map Prod.snd =
      some view := by
    cases settings.policy <;> rfl
  rw [hChosen, Option.map_eq_some_iff] at hView
  obtain ⟨b, rfl, rfl⟩ := hView
  exact ⟨b, rfl, hPacks⟩

section Step

variable {s : BankStore} {result : PollResult} {ts : Nat} (hBefore : NoKindReading s.db)

section Bank

variable {bank : Option BankAggregate}
  (hBank : bankOf s.settings s.db result.devices ts = some bank)

include hBefore hBank

/-- Where a shunt is the same on both sides, the bank is made of it. -/
theorem bank_shunt {label : String} (h : SameShunt s result ts label) :
    ∃ b d, bank = some b ∧ shuntView d = some b.view ∧
      ∀ key, PyText.startsWith key "_" = false →
        d.get key = taken s.db result.devices label key := by
  obtain ⟨d, hFind, hMem⟩ := find_shunt hBefore h.first
  have hPolicy : s.settings.policy = .bms →
      ((augmentForBank s.db result.devices ts).map Prod.snd).filter isBattery = [] := by
    intro hBms
    refine List.filter_eq_nil_iff.mpr fun d' hd' hBattery => ?_
    obtain ⟨e, he, rfl⟩ := List.mem_map.mp hd'
    exact h.policy hBms e.1 (present_of_kind hBefore he (of_decide_eq_true hBattery))
  obtain ⟨b, rfl, hView⟩ := bank_of_shunt hBank hFind hPolicy
  exact ⟨b, d, rfl, hView, (mem_augment hBefore hMem).2⟩

/-- Where the batteries are the same on both sides, the bank is made of them. -/
theorem bank_packs (h : SamePacks s result ts)
    (hSome : ∃ label, KnownAs (afterPoll s result ts) "smart_battery" label) :
    ∃ b, bank = some b ∧ bmsView (((augmentForBank s.db result.devices ts).filter
      fun e => isBattery e.2).map Prod.snd) = some b.view := by
  have hFind : ((augmentForBank s.db result.devices ts).map Prod.snd).find? isShunt = none := by
    refine List.find?_eq_none.mpr fun d' hd' hShunt => ?_
    obtain ⟨e, he, rfl⟩ := List.mem_map.mp hd'
    exact h.noShunt e.1 (present_of_kind hBefore he (of_decide_eq_true hShunt))
  have hFilter : ((augmentForBank s.db result.devices ts).map Prod.snd).filter isBattery =
      ((augmentForBank s.db result.devices ts).filter fun e => isBattery e.2).map Prod.snd :=
    List.filter_map
  have hBatts : ((augmentForBank s.db result.devices ts).map Prod.snd).filter isBattery ≠ [] := by
    obtain ⟨label, hKnown⟩ := hSome
    obtain ⟨d, hMem, hEq⟩ := exists_augment hBefore (by decide) ((h.present label).mp hKnown)
    have hBattery : d ∈ ((augmentForBank s.db result.devices ts).map Prod.snd).filter isBattery :=
      List.mem_filter.mpr ⟨List.mem_map_of_mem hMem, decide_eq_true hEq⟩
    exact List.ne_nil_of_mem hBattery
  obtain ⟨b, rfl, hView⟩ := bank_of_packs hBank hFind hBatts
  exact ⟨b, rfl, hFilter ▸ hView⟩

end Bank

variable (hAfter : NoKindReading (afterPoll s result ts))

include hBefore hAfter

/-- The batteries on either side have the same names. -/
theorem packs_perm (h : SamePacks s result ts) :
    (((augmentForBank s.db result.devices ts).filter fun e => isBattery e.2).map Prod.fst).Perm
      (((getLatest (afterPoll s result ts)).entries.filter fun e => isBattery e.2).map
        Prod.fst) := by
  refine (List.perm_ext_iff_of_nodup ?_ ?_).mpr fun label => ?_
  · exact (nodup_augment _ _ _).sublist (List.filter_sublist.map _)
  · exact (getLatest _).nodup.sublist (List.filter_sublist.map _)
  · rw [mem_names, mem_names]
    constructor
    · intro hLeft
      obtain ⟨d, hMem, hBattery⟩ := hLeft
      have hPresent := present_of_kind hBefore hMem (of_decide_eq_true hBattery)
      obtain ⟨d', hMem', hKind⟩ := exists_getLatest hAfter (by decide)
        ((h.present label).mpr hPresent)
      exact ⟨d', hMem', decide_eq_true hKind⟩
    · intro hRight
      obtain ⟨d, hMem, hBattery⟩ := hRight
      have hKnown := known_of_kind hAfter hMem (by decide) (of_decide_eq_true hBattery)
      obtain ⟨d', hMem', hKind⟩ := exists_augment hBefore (by decide) ((h.present label).mp hKnown)
      exact ⟨d', hMem', decide_eq_true hKind⟩

/-- The snapshot has no figures, or the bank of the poll has the same. -/
theorem figures_same (h : SameMonitors s result ts) {bank : Option BankAggregate}
    (hBank : bankOf s.settings s.db result.devices ts = some bank) :
    bankFigures ((getLatest (afterPoll s result ts)).entries.map Prod.snd) = some none ∨
      ∃ b, bank = some b ∧ ∀ soc netW,
        bankFigures ((getLatest (afterPoll s result ts)).entries.map Prod.snd) =
          some (some (soc, netW)) → b.view.socPct = some soc ∧ b.view.powerW = netW := by
  have hShuntNames : ∀ key ∈ shuntKeys, PyText.startsWith key "_" = false := by decide
  have hPackNames : ∀ key ∈ packKeys, PyText.startsWith key "_" = false := by decide
  unfold bankFigures
  cases hFind : ((getLatest (afterPoll s result ts)).entries.map Prod.snd).find? isShunt with
  | some d' =>
      rcases find_listed hAfter hFind with ⟨label, hFirst, hMem⟩ | hNone
      · right
        have hSame := h.shunt label hFirst
        obtain ⟨b, d, rfl, hView, hTaken⟩ := bank_shunt hBefore hBank hSame
        refine ⟨b, rfl, fun soc netW hFigures => ?_⟩
        refine shunt_same (fun key hKey => ?_) ?_ hView hFigures
        · rw [hTaken key (hShuntNames key hKey),
            (mem_getLatest hAfter hMem).2 key (hShuntNames key hKey)]
          exact hSame.figures key hKey
        · rw [hTaken "soc_pct" (by decide), hTaken "remaining_ah" (by decide),
            hTaken "bank_capacity_ah" (by decide), hTaken "capacity_ah" (by decide)]
          exact hSame.zero
      · exact Or.inl hNone
  | none =>
      by_cases hBatts : ((getLatest (afterPoll s result ts)).entries.map Prod.snd).filter
          isBattery = []
      · exact Or.inl (by rw [hBatts]; rfl)
      · right
        have hSome := known_of_battery hAfter (List.getLast_mem hBatts)
        have hSame := h.packs (noShunt_of_find hAfter hFind) hSome
        obtain ⟨b, rfl, hView⟩ := bank_packs hBefore hBank hSame hSome
        refine ⟨b, rfl, fun soc netW hFigures => ?_⟩
        rw [List.filter_map] at hFigures
        refine packs_same (afterPoll s result ts).reading (packs_perm hBefore hAfter hSame)
          (fun key hKey e he => ?_) (fun key hKey e he => ?_) hView hFigures
        · obtain ⟨hEntry, hBattery⟩ := List.mem_filter.mp he
          have hPresent := present_of_kind hBefore hEntry (of_decide_eq_true hBattery)
          have hTaken := (mem_augment hBefore (show (e.1, e.2) ∈ _ from hEntry)).2
          rw [hTaken key (hPackNames key hKey)]
          exact hSame.figures e.1 ((hSame.present e.1).mpr hPresent) key hKey
        · obtain ⟨hEntry, -⟩ := List.mem_filter.mp he
          exact Or.inl ((mem_getLatest hAfter (show (e.1, e.2) ∈ _ from hEntry)).2 key
            (hPackNames key hKey))

theorem seesBank_of_same (h : SameMonitors s result ts) : SeesBank s result ts := by
  constructor
  · intro bank hBank snap hSnap
    simp only [readBankSnapshot, Option.bind_eq_bind, Option.bind_eq_some_iff] at hSnap
    obtain ⟨figures, hFigures, hRest⟩ := hSnap
    cases figures with
    | none => cases Option.some.inj hRest
    | some pair =>
        obtain ⟨pv, -, hEq⟩ := Option.map_eq_some_iff.mp hRest
        rcases figures_same hBefore hAfter h hBank with hNone | ⟨b, hb, hSame⟩
        · rw [hNone] at hFigures
          cases Option.some.inj hFigures
        · rw [Option.some.inj hb, ← Option.some.inj hEq]
          exact hSame pair.1 pair.2 hFigures
  · intro hBank
    rcases figures_same hBefore hAfter h hBank with hNone | ⟨b, hb, -⟩
    · simp only [readBankSnapshot, hNone, Option.bind_eq_bind, Option.bind_some]
    · cases hb

end Step

/-! ### Runs -/

/-- No poll records a kind as a reading. -/
theorem kind_notMem_num {devices : Dict PollDict} {num : List (String × String × ℚ)}
    (hNum : deviceNum devices = some num) (label : String) (q : ℚ) :
    (label, "_kind", q) ∉ num := by
  intro hMem
  simp only [deviceNum, Option.bind_eq_bind, Option.bind_eq_some_iff] at hNum
  obtain ⟨derived, hDerived, hEq⟩ := hNum
  rw [← Option.some.inj hEq, mem_zipWith_flatten hDerived] at hMem
  obtain ⟨e, -, cells, hCells, hRow⟩ := hMem
  rcases List.mem_append.mp hRow with hOwn | hDerivedRow
  · exact absurd (mem_numReadings.mp hOwn).2.1 (by decide)
  · unfold derivedReadings at hCells
    split at hCells
    · obtain ⟨volts, -, rfl⟩ := Option.map_eq_some_iff.mp hCells
      split at hDerivedRow <;> simp at hDerivedRow
    · cases hCells
      cases hDerivedRow

theorem kind_notMem_str (devices : Dict PollDict) (label text : String) :
    (label, "_kind", text) ∉ deviceStr devices := by
  intro hMem
  obtain ⟨e, -, hRow⟩ := List.mem_flatMap.mp hMem
  exact absurd (mem_strReadings.mp hRow).2.1 (by decide)

theorem kind_notMem_bank (bank : BankAggregate) :
    bank.numFields.lookup "_kind" = none ∧ bank.strFields.lookup "_kind" = none := by
  obtain ⟨view, packCount, source, cells, ⟨cycleCount, throughput⟩, dis⟩ := bank
  constructor
  · cases cells <;> cases throughput <;>
      simp [BankAggregate.numFields, List.lookup_append, lookup_numField, lookup_cons_ite]
  · cases dis <;> simp [BankAggregate.strFields, lookup_cons_ite]

/-- A key that the bank does not have is not recorded for it. -/
theorem notMem_bank_rows {α : Type} {fields : List (String × α)} {metric : String}
    (h : fields.lookup metric = none) (label : String) (v : α) :
    (label, metric, v) ∉ fields.map fun f => ("bank", f.1, f.2) := by
  intro hMem
  obtain ⟨f, hField, hEq⟩ := List.mem_map.mp hMem
  obtain ⟨-, hRest⟩ := Prod.mk.inj hEq
  have hNe := List.lookup_eq_none_iff.mp h f hField
  rw [(Prod.mk.inj hRest).1] at hNe
  simp at hNe

theorem noKindReading_recordPoll {settings : BankSettings} {db : Db ℚ} {result : PollResult}
    {ts : Nat} {rows : PollRows ℚ} (hRows : pollRows settings db result ts = some rows)
    (h : NoKindReading db) : NoKindReading (recordPoll rows db) := by
  intro label
  obtain ⟨num, bank, hNum, -, hRowsNum, hRowsStr⟩ := pollRows_readings hRows
  have hNumNone : lastReading label "_kind" rows.num = none := by
    refine lastReading_eq_none.mpr fun q hMem => ?_
    rw [hRowsNum] at hMem
    rcases List.mem_append.mp hMem with hDevice | hBank
    · exact kind_notMem_num hNum label q hDevice
    · cases bank with
      | none => cases hBank
      | some b => exact notMem_bank_rows (kind_notMem_bank b).1 label q hBank
  have hStrNone : lastReading label "_kind" rows.str = none := by
    refine lastReading_eq_none.mpr fun text hMem => ?_
    rw [hRowsStr] at hMem
    rcases List.mem_append.mp hMem with hDevice | hBank
    · exact kind_notMem_str _ label text hDevice
    · cases bank with
      | none => cases hBank
      | some b => exact notMem_bank_rows (kind_notMem_bank b).2 label text hBank
  rw [reading_recordPoll, PollRows.reading, hNumNone, hStrNone, h label]
  rfl

theorem noKindReading_step (s : BankStore) (op : BankOp) (h : NoKindReading s.db) :
    NoKindReading (bankStep s op).db := by
  cases op with
  | recordPoll result ts =>
      simp only [bankStep]
      split
      · exact h
      · next hRows => exact noKindReading_recordPoll hRows h
  | purgeDevice label =>
      intro other
      simp only [bankStep, purgeDevice, Db.reading, Table.lookup_filterKeys]
      split_ifs
      · exact h other
      · rfl
  | rollupAndPurge ret now => exact h
  | setBankPolicy settings => exact h

/-- In every run of the store, whatever its policy: where the controller and the bank of a poll
look at the same monitors, they see the same bank. -/
theorem pause_sees_bank (settings : BankSettings) (ops : List BankOp) (result : PollResult)
    (ts : Nat) (h : SameMonitors (run bankStep (.initial settings) ops) result ts) :
    SeesBank (run bankStep (.initial settings) ops) result ts := by
  have hBefore := run_preserves noKindReading_step (s := BankStore.initial settings)
    (fun label => rfl) ops
  exact seesBank_of_same hBefore (noKindReading_step _ (.recordPoll result ts) hBefore) h

/-- The result of a poll of one shunt, at 50 %. -/
def shuntResult : PollResult := (shuntCall (-10) none 60).result

/-- A shunt that answers is seen on both sides. -/
theorem pause_sees_shunt :
    SeesBank (run bankStep (.initial .default) []) shuntResult 60 ∧
      readBankSnapshot (afterPoll (.initial .default) shuntResult 60) =
        some (some ⟨50, -130, 0⟩) := by
  have hKinds : ∀ e ∈ (afterPoll (.initial .default) shuntResult 60).deviceMeta.rows,
      e.2.kind = "shunt" → e.1 = "shunt" := by
    decide +kernel
  have hKnown : ((afterPoll (.initial .default) shuntResult 60).deviceMeta.lookup "shunt").map
      DeviceMeta.kind = some "shunt" := by
    decide +kernel
  have hFigures : ∀ key ∈ shuntKeys, taken Db.empty shuntResult.devices "shunt" key =
      (afterPoll (.initial .default) shuntResult 60).reading "shunt" key := by
    decide +kernel
  have hSame : SameShunt (.initial .default) shuntResult 60 "shunt" :=
    { first := Or.inl ⟨[], _, [], rfl, by decide +kernel, fun e he => by cases he⟩
      policy := fun hPolicy => by cases hPolicy
      figures := fun key hKey => Or.inl (hFigures key hKey)
      zero := fun _ hFalsy => absurd hFalsy (by decide +kernel) }
  refine ⟨pause_sees_bank .default [] shuntResult 60 ⟨fun label hFirst => ?_, fun hNone => ?_⟩,
    by decide +kernel⟩
  · obtain ⟨row, hRow, hKind⟩ := hFirst.known
    obtain rfl : label = "shunt" := hKinds (label, row) (Table.lookup_eq_some_iff.mp hRow) hKind
    exact hSame
  · exact absurd (Option.map_eq_some_iff.mp hKnown) (hNone "shunt")

/-- The result of a poll of one battery, at 80 %. -/
def packResult : PollResult where
  devices := Dict.ofList [("pack", Dict.ofList [("_vendor", .text "jbd"),
    ("_kind", .text "smart_battery"), ("voltage_v", .num 13), ("current_a", .num 5),
    ("capacity_ah", .num 100), ("remaining_charge_ah", .num 80)])]
  elapsedSeconds := 0
  errorsCount := 0
  errorsRepr := none

/-- A shunt that is gone for a quarter of an hour is not in the bank any more, but it is all
that the controller sees. -/
theorem pause_sees_gone_shunt :
    ¬SeesBank (run bankStep (.initial .default) [.recordPoll shuntResult 60]) packResult 960 := by
  intro h
  have hBank : bankOf .default (run bankStep (.initial .default) [.recordPoll shuntResult 60]).db
      packResult.devices 960 = some (some
        { view := ⟨13, 5, 65, some 80, some 80, some 100, none⟩
          packCount := 1
          source := .bms
          cells := some ⟨none, none, 0⟩
          health := ⟨none, none⟩
          disagreement := none }) := by
    decide +kernel
  have hSnap : readBankSnapshot (afterPoll
      (run bankStep (.initial .default) [.recordPoll shuntResult 60]) packResult 960) =
        some (some ⟨50, -130, 0⟩) := by
    decide +kernel
  have hSoc := (h.same _ hBank _ hSnap).1
  revert hSoc
  decide

end WattPost.Outputs.PauseBank
