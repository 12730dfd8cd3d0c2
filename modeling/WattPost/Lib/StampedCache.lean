import Mathlib.Algebra.Order.Ring.Unbundled.Rat
import Mathlib.Logic.Function.Basic
import WattPost.Lib.Runs

/-! A cache of the latest value of each kind, with one stamp for all kinds, and the link
that fills it: chunks of a stream are scanned for entries as they arrive. The log has every
entry with its time. -/
namespace StampedCache

variable {κ ν β : Type}

/-- An entry of the log: its time, its kind and its value. -/
abbrev Entry (κ ν : Type) := ℚ × κ × ν

structure Cache (κ ν : Type) where
  latest : κ → Option ν
  latestAt : ℚ

def Cache.empty : Cache κ ν := ⟨fun _ => none, 0⟩

section Put

variable [DecidableEq κ]

def Cache.put (c : Cache κ ν) (e : Entry κ ν) : Cache κ ν :=
  ⟨Function.update c.latest e.2.1 (some e.2.2), e.1⟩

/-- A read, which gives nothing once the stamp is older than the limit. -/
def Cache.get (c : Cache κ ν) (limit now : ℚ) (k : κ) : Option ν :=
  if now - c.latestAt > limit then none else c.latest k

/-- The cache after a log. -/
def Cache.putAll (c : Cache κ ν) (log : List (Entry κ ν)) : Cache κ ν := log.foldl Cache.put c

/-- The last value of a kind. -/
def lastOf (entries : List (κ × ν)) (k : κ) : Option ν :=
  ((entries.filter fun e => e.1 = k).getLast?).map Prod.snd

theorem putAll_concat (c : Cache κ ν) (log : List (Entry κ ν)) (e : Entry κ ν) :
    c.putAll (log ++ [e]) = (c.putAll log).put e := by
  rw [Cache.putAll, List.foldl_append]
  rfl

theorem latest_putAll (log : List (Entry κ ν)) (k : κ) :
    (Cache.empty.putAll log).latest k = lastOf (log.map Prod.snd) k := by
  induction log using List.reverseRecOn with
  | nil => rfl
  | append_singleton log e ih =>
      rw [putAll_concat, Cache.put, lastOf, List.map_append, List.filter_append]
      dsimp only
      by_cases hKind : e.2.1 = k
      · subst hKind
        rw [Function.update_self, List.map_singleton, List.filter_cons_of_pos (by simp),
          List.filter_nil, List.getLast?_concat]
        rfl
      · rw [Function.update_of_ne (Ne.symm hKind), List.map_singleton,
          List.filter_cons_of_neg (by simpa using hKind), List.filter_nil, List.append_nil]
        exact ih

theorem latestAt_putAll (log : List (Entry κ ν)) :
    (Cache.empty.putAll log : Cache κ ν).latestAt = (log.getLast?.map Prod.fst).getD 0 := by
  induction log using List.reverseRecOn with
  | nil => rfl
  | append_singleton log e ih =>
      rw [putAll_concat, List.getLast?_concat]
      rfl

/-- A kind has a value once it is in the log. -/
theorem isSome_lastOf {log : List (Entry κ ν)} {k : κ} :
    (lastOf (log.map Prod.snd) k).isSome = true ↔ ∃ e ∈ log, e.2.1 = k := by
  rw [lastOf, Option.isSome_map, List.getLast?_isSome, ← List.length_pos_iff,
    List.length_filter_pos_iff]
  constructor
  · rintro ⟨entry, hEntry, hKind⟩
    obtain ⟨e, he, rfl⟩ := List.mem_map.mp hEntry
    exact ⟨e, he, of_decide_eq_true hKind⟩
  · rintro ⟨e, he, hKind⟩
    exact ⟨e.2, List.mem_map_of_mem he, decide_eq_true hKind⟩

/-! ### Fresh reads -/

/-- The kind is in the log, not longer ago than the limit. -/
def Fresh (limit now : ℚ) (log : List (Entry κ ν)) (k : κ) : Prop :=
  ∃ e ∈ log, e.2.1 = k ∧ now - e.1 ≤ limit

instance (limit now : ℚ) (log : List (Entry κ ν)) (k : κ) : Decidable (Fresh limit now log k) := by
  unfold Fresh
  infer_instance

/-- The kind was in the log, but longer ago than the limit, while the last entry of the log
is not: another kind has kept the stamp young. -/
def Outlived (limit now : ℚ) (log : List (Entry κ ν)) (k : κ) : Prop :=
  (∃ e ∈ log, e.2.1 = k) ∧ (∀ e ∈ log, e.2.1 = k → limit < now - e.1) ∧
    ∃ e, log.getLast? = some e ∧ now - e.1 ≤ limit

/-- A read gives a value when the kind has one and the last entry is not too old. -/
theorem isSome_get {limit now : ℚ} {log : List (Entry κ ν)} {k : κ} :
    ((Cache.empty.putAll log).get limit now k).isSome = true ↔
      (∃ e ∈ log, e.2.1 = k) ∧ ∃ e, log.getLast? = some e ∧ now - e.1 ≤ limit := by
  rw [Cache.get, latest_putAll, latestAt_putAll, ← isSome_lastOf]
  cases hLast : log.getLast? with
  | none =>
      rw [List.getLast?_eq_none_iff] at hLast
      subst hLast
      simp [lastOf]
  | some e =>
      show (if now - e.1 > limit then none else lastOf (log.map Prod.snd) k).isSome = true ↔ _
      constructor
      · intro hSome
        by_cases hOld : now - e.1 > limit
        · rw [if_pos hOld] at hSome
          cases hSome
        · rw [if_neg hOld] at hSome
          exact ⟨hSome, e, rfl, not_lt.mp hOld⟩
      · rintro ⟨hSeen, last, hEq, hYoung⟩
        obtain rfl := Option.some.inj hEq
        rwa [if_neg (not_lt.mpr hYoung)]

/-- A read gives a value only of a fresh kind, exactly when no other kind has outlived it. -/
theorem get_fresh_iff (limit now : ℚ) (log : List (Entry κ ν)) (k : κ) :
    (((Cache.empty.putAll log).get limit now k).isSome = true → Fresh limit now log k) ↔
      ¬Outlived limit now log k := by
  have hStale : ¬Fresh limit now log k ↔ ∀ e ∈ log, e.2.1 = k → limit < now - e.1 := by
    simp only [Fresh, not_exists, not_and, not_le]
  rw [isSome_get, Outlived, ← hStale]
  constructor
  · rintro hFresh ⟨hSeen, hNot, hLast⟩
    exact hNot (hFresh ⟨hSeen, hLast⟩)
  · rintro hNot ⟨hSeen, hLast⟩
    by_contra hOld
    exact hNot ⟨hSeen, hOld, hLast⟩

end Put

/-! ### Links -/

/-- A link: the bytes that wait for more, and the cache. -/
structure Link (β κ ν : Type) where
  buf : List β
  cache : Cache κ ν

def Link.empty : Link β κ ν := ⟨[], .empty⟩

section Scan

variable (scan : List β → List β → List (κ × ν) × List β)

/-- What the scans find, from a buffer on: a scan takes what waits and what arrives, and
gives entries and what goes on waiting. -/
def logFrom : List β → List (ℚ × List β) → List (Entry κ ν)
  | _, [] => []
  | buf, chunk :: rest =>
      (scan buf chunk.2).1.map (fun e => (chunk.1, e)) ++ logFrom (scan buf chunk.2).2 rest

/-- What waits after the chunks. -/
def bufFrom : List β → List (ℚ × List β) → List β
  | buf, [] => buf
  | buf, chunk :: rest => bufFrom (scan buf chunk.2).2 rest

/-- The log of a link. -/
def log (chunks : List (ℚ × List β)) : List (Entry κ ν) := logFrom scan [] chunks

theorem logFrom_append (buf : List β) (first second : List (ℚ × List β)) :
    logFrom scan buf (first ++ second) =
      logFrom scan buf first ++ logFrom scan (bufFrom scan buf first) second := by
  induction first generalizing buf with
  | nil => rfl
  | cons chunk rest ih => rw [List.cons_append, logFrom, logFrom, bufFrom, ih, List.append_assoc]

theorem bufFrom_append (buf : List β) (first second : List (ℚ × List β)) :
    bufFrom scan buf (first ++ second) = bufFrom scan (bufFrom scan buf first) second := by
  induction first generalizing buf with
  | nil => rfl
  | cons chunk rest ih => rw [List.cons_append, bufFrom, bufFrom, ih]

/-- A decoder of a stream that can stop anywhere and go on from what it has left. -/
def Incremental (decode : List β → List (κ × ν) × List β) : Prop :=
  ∀ xs ys, decode (xs ++ ys) =
    ((decode xs).1 ++ (decode ((decode xs).2 ++ ys)).1, (decode ((decode xs).2 ++ ys)).2)

/-- Such a decoder, run on every chunk with what was left before it, finds what it
finds in the whole stream. -/
theorem Incremental.from_eq {decode : List β → List (κ × ν) × List β}
    (h : Incremental decode) {buf : List β} (hBuf : decode buf = ([], buf))
    (chunks : List (ℚ × List β)) :
    ((logFrom (fun buf data => decode (buf ++ data)) buf chunks).map Prod.snd,
      bufFrom (fun buf data => decode (buf ++ data)) buf chunks) =
        decode (buf ++ chunks.flatMap Prod.snd) := by
  induction chunks generalizing buf with
  | nil => rw [List.flatMap_nil, List.append_nil, hBuf]; rfl
  | cons chunk rest ih =>
      -- what is left has been decoded to the end
      have hLeft : decode (decode (buf ++ chunk.2)).2 = ([], (decode (buf ++ chunk.2)).2) := by
        have hNothing := h (buf ++ chunk.2) []
        rw [List.append_nil, List.append_nil] at hNothing
        have hFound := congrArg Prod.fst hNothing
        have hRest := congrArg Prod.snd hNothing
        exact Prod.ext (List.self_eq_append_right.mp hFound) hRest.symm
      have hChunks := ih hLeft
      rw [List.flatMap_cons, ← List.append_assoc, h, ← hChunks]
      simp only [logFrom, bufFrom, List.map_append, List.map_map]
      congr 2
      exact List.map_id _

variable [DecidableEq κ]

/-- A chunk arrives. -/
def Link.notify (s : Link β κ ν) (chunk : ℚ × List β) : Link β κ ν :=
  let r := scan s.buf chunk.2
  { buf := r.2
    cache := s.cache.putAll (r.1.map fun e => (chunk.1, e)) }

/-- The link after a list of chunks. -/
def Link.after (chunks : List (ℚ × List β)) : Link β κ ν :=
  Runs.run (Link.notify scan) .empty chunks

theorem cache_run (s : Link β κ ν) (chunks : List (ℚ × List β)) :
    (Runs.run (Link.notify scan) s chunks).cache = s.cache.putAll (logFrom scan s.buf chunks) := by
  induction chunks generalizing s with
  | nil => rfl
  | cons chunk rest ih =>
      show (Runs.run (Link.notify scan) (s.notify scan chunk) rest).cache = _
      rw [ih, logFrom, Cache.putAll, Cache.putAll, List.foldl_append]
      rfl

/-- The cache of a link is that of its log. -/
theorem cache_after (chunks : List (ℚ × List β)) :
    (Link.after scan chunks).cache = Cache.empty.putAll (log scan chunks) :=
  cache_run scan .empty chunks

end Scan

end StampedCache
