import WattPost.Backup.Snapshots
import WattPost.Lib.Runs

/-! Runs of overlapping calls: what the directory holds at any moment, what a pruning leaves of
it, and when the snapshots survive. -/
namespace WattPost.Backup.Snapshots

open LocalTime

section Invariant

/-- What the phase of a call says about the directory. -/
def PhaseOk (dir : List Entry) (c : Nat) : Phase → Prop
  | .writing path => isAutoName path = true ∧ ∀ e ∈ dir, e.name ≠ path
  | .opened path inode => ∃ e ∈ dir, e.name = path ∧ e.inode = inode ∧ isAutoSnapshot e = true
  | .written path => ∃ e ∈ dir, e.name = path ∧ e.writer = some c ∧ isAutoSnapshot e = true
  | .uploading path => ∃ e ∈ dir, e.name = path ∧ e.writer = some c ∧ isAutoSnapshot e = true
  | .returned path => ∀ e ∈ dir, e.name = path → e.writer = some c
  | _ => True

structure DirOk (cfg : Cfg) (s : State) : Prop where
  names : (s.dir.map Entry.name).Nodup
  inodes : (s.dir.map Entry.inode).Nodup
  orders : (s.dir.map Entry.order).Nodup
  inodeLt : ∀ e ∈ s.dir, e.inode < s.nextInode
  orderLt : ∀ e ∈ s.dir, e.order < s.nextOrder
  goneLt : ∀ g ∈ s.gone, g < s.nextOrder ∧ ∀ e ∈ s.autos, g < e.order
  count : s.autos.length ≤ s.left + s.begun
  full : s.gone ≠ [] → cfg.keepCount ≤ s.autos.length

structure Inv (cfg : Cfg) (s : State) : Prop extends DirOk cfg s where
  paths : ∀ c d path, (s.calls c).bind Phase.path = some path →
    (s.calls d).bind Phase.path = some path → c = d
  phase : ∀ c phase, s.calls c = some phase → PhaseOk s.dir c phase

variable {cfg : Cfg} {s : State} {c : Nat}

/-- An entry is known by its name. -/
theorem Inv.eq_of_name (h : Inv cfg s) {e e' : Entry} (he : e ∈ s.dir) (he' : e' ∈ s.dir)
    (hName : e.name = e'.name) : e = e' := List.inj_on_of_nodup_map h.names he he' hName

theorem Inv.eq_of_inode (h : Inv cfg s) {e e' : Entry} (he : e ∈ s.dir) (he' : e' ∈ s.dir)
    (hInode : e.inode = e'.inode) : e = e' := List.inj_on_of_nodup_map h.inodes he he' hInode

theorem start_inv (cfg : Cfg) (existing : Existing) : Inv cfg (start existing) := by
  have hMem : ∀ e ∈ existing.entries, e.inode < existing.files.length ∧
      e.order < existing.files.length := by
    intro e he
    obtain ⟨⟨file, i⟩, hFile, rfl⟩ := List.mem_map.mp he
    exact ⟨List.snd_lt_of_mem_zipIdx hFile, List.snd_lt_of_mem_zipIdx hFile⟩
  have hNames : existing.entries.map Entry.name = existing.files.map Prod.fst := by
    rw [Existing.entries, List.map_map]
    exact (List.map_map (f := Prod.fst) (g := Prod.fst)).symm.trans
      (congrArg (List.map Prod.fst) (List.zipIdx_map_fst 0 existing.files))
  have hNumbers : existing.files.zipIdx.map Prod.snd = List.range' 0 existing.files.length :=
    List.zipIdx_map_snd 0 existing.files
  have hNumbered : (existing.files.zipIdx.map Prod.snd).Nodup := by
    rw [hNumbers]
    exact List.nodup_range'
  refine ⟨⟨?_, ?_, ?_, fun e he => (hMem e he).1, fun e he => (hMem e he).2, ?_, ?_, ?_⟩, ?_, ?_⟩
  · exact (congrArg List.Nodup hNames).mpr existing.nodup
  · show (existing.entries.map Entry.inode).Nodup
    rw [Existing.entries, List.map_map]
    exact hNumbered
  · show (existing.entries.map Entry.order).Nodup
    rw [Existing.entries, List.map_map]
    exact hNumbered
  · exact fun g hg => nomatch hg
  · exact le_rfl
  · exact fun h => absurd rfl h
  · exact fun c d path h => nomatch h
  · exact fun c phase h => nomatch h

/-- A phase only speaks of the file at its path. -/
theorem PhaseOk.congr {dir dir' : List Entry} {phase : Phase} (h : PhaseOk dir c phase)
    (hSame : ∀ path, phase.path = some path → ∀ e : Entry, e.name = path →
      (e ∈ dir' ↔ e ∈ dir)) : PhaseOk dir' c phase := by
  have hKept : ∀ {path} {P : Entry → Prop}, phase.path = some path →
      (∃ e ∈ dir, e.name = path ∧ P e) → ∃ e ∈ dir', e.name = path ∧ P e := by
    rintro path P hPath ⟨e, he, hName, hP⟩
    exact ⟨e, (hSame path hPath e hName).mpr he, hName, hP⟩
  cases phase with
  | building => trivial
  | raised => trivial
  | writing path =>
      exact ⟨h.1, fun e he hName => h.2 e ((hSame path rfl e hName).mp he) hName⟩
  | opened path inode => exact hKept rfl h
  | written path => exact hKept rfl h
  | uploading path => exact hKept rfl h
  | returned path => exact fun e he hName => h e ((hSame path rfl e hName).mp he) hName

/-- A call moves on, and the directory may change as far as the others allow. -/
theorem Inv.move {s' : State} (h : Inv cfg s) (hDir : DirOk cfg s') {phase : Phase}
    (hCalls : s'.calls = Function.update s.calls c (some phase))
    (hPath : ∀ path, phase.path = some path → ∀ d, d ≠ c →
      (s.calls d).bind Phase.path ≠ some path)
    (hPhase : PhaseOk s'.dir c phase)
    (hOthers : ∀ d phase', d ≠ c → s.calls d = some phase' → PhaseOk s'.dir d phase') :
    Inv cfg s' := by
  refine ⟨hDir, ?_, ?_⟩
  · intro a b path ha hb
    rw [hCalls, Function.update_apply] at ha hb
    split_ifs at ha hb with hac hbc hbc
    · exact hac.trans hbc.symm
    · exact absurd hb (hPath path ha b hbc)
    · exact absurd ha (hPath path hb a hac)
    · exact h.paths a b path ha hb
  · intro d phase' hd
    rw [hCalls, Function.update_apply] at hd
    split_ifs at hd with hdc
    · cases hd
      exact hdc ▸ hPhase
    · exact hOthers d phase' hdc hd

theorem Inv.setCall (h : Inv cfg s) {phase : Phase} (hPhase : PhaseOk s.dir c phase)
    (hPath : ∀ path, phase.path = some path → ∀ d, d ≠ c →
      (s.calls d).bind Phase.path ≠ some path) :
    Inv cfg (s.setCall c phase) := by
  have hDir : DirOk cfg (s.setCall c phase) :=
    ⟨h.names, h.inodes, h.orders, h.inodeLt, h.orderLt, h.goneLt, h.count, h.full⟩
  exact h.move hDir rfl hPath hPhase fun d phase' _ => h.phase d phase'

/-- A call that keeps its path keeps it alone. -/
theorem Inv.path_alone (h : Inv cfg s) {path : String}
    (hPath : (s.calls c).bind Phase.path = some path) :
    ∀ d, d ≠ c → (s.calls d).bind Phase.path ≠ some path :=
  fun d hd hOther => hd (h.paths d c path hOther hPath)

/-- A name is free until its call has made the file. -/
theorem Inv.openFile_eq (h : Inv cfg s) {path : String} {now : ℚ}
    (hCall : s.calls c = some (.writing path)) :
    openFile c now path s =
      { s.setCall c (.opened path s.nextInode) with
        dir := s.dir ++ [⟨path, true, s.nextInode, now, none, s.nextOrder⟩]
        nextInode := s.nextInode + 1
        nextOrder := s.nextOrder + 1
        begun := s.begun + 1 } := by
  have hFree : s.dir.find? (fun e => e.name = path) = none :=
    List.find?_eq_none.mpr fun e he => by simpa using (h.phase c _ hCall).2 e he
  rw [openFile, hFree]

theorem nodup_map_concat {β : Type} {f : Entry → β} {dir : List Entry} {made : Entry}
    (h : (dir.map f).Nodup) (hNew : ∀ e ∈ dir, f e ≠ f made) : ((dir ++ [made]).map f).Nodup := by
  rw [List.map_append, List.map_singleton, ← List.concat_eq_append]
  refine h.concat fun hMem => ?_
  obtain ⟨e, he, hEq⟩ := List.mem_map.mp hMem
  exact hNew e he hEq

/-- A new snapshot is the last one. -/
theorem dirOk_append (h : DirOk cfg s) {s' : State} {made : Entry}
    (hMade : isAutoSnapshot made = true) (hName : ∀ e ∈ s.dir, e.name ≠ made.name)
    (hInode : made.inode = s.nextInode) (hOrder : made.order = s.nextOrder)
    (hDir : s'.dir = s.dir ++ [made]) (hNextInode : s'.nextInode = s.nextInode + 1)
    (hNextOrder : s'.nextOrder = s.nextOrder + 1) (hGone : s'.gone = s.gone)
    (hCount : s'.left + s'.begun = s.left + s.begun + 1) : DirOk cfg s' := by
  have hAutos : s'.autos = s.autos ++ [made] := by
    rw [State.autos, hDir, List.filter_append, List.filter_cons_of_pos hMade, List.filter_nil]
    rfl
  have hMem : ∀ e ∈ s'.dir, e ∈ s.dir ∨ e = made := fun e he =>
    (List.mem_append.mp (hDir ▸ he)).imp_right List.mem_singleton.mp
  refine ⟨?_, ?_, ?_, ?_, ?_, ?_, ?_, ?_⟩
  · exact hDir ▸ nodup_map_concat h.names hName
  · exact hDir ▸ nodup_map_concat h.inodes fun e he => hInode ▸ (h.inodeLt e he).ne
  · exact hDir ▸ nodup_map_concat h.orders fun e he => hOrder ▸ (h.orderLt e he).ne
  · intro e he
    rw [hNextInode]
    rcases hMem e he with he | rfl
    · exact (h.inodeLt e he).trans (Nat.lt_succ_self _)
    · exact hInode ▸ Nat.lt_succ_self _
  · intro e he
    rw [hNextOrder]
    rcases hMem e he with he | rfl
    · exact (h.orderLt e he).trans (Nat.lt_succ_self _)
    · exact hOrder ▸ Nat.lt_succ_self _
  · intro g hg
    obtain ⟨hLt, hAll⟩ := h.goneLt g (hGone ▸ hg)
    refine ⟨hNextOrder ▸ hLt.trans (Nat.lt_succ_self _), fun e he => ?_⟩
    rw [hAutos] at he
    rcases List.mem_append.mp he with he | he
    · exact hAll e he
    · rw [List.mem_singleton.mp he, hOrder]
      exact hLt
  · rw [hAutos, List.length_append, List.length_singleton, hCount]
    exact Nat.succ_le_succ h.count
  · intro hSome
    rw [hAutos, List.length_append]
    exact (h.full (hGone ▸ hSome)).trans (Nat.le_add_right _ _)

theorem inv_openFile (h : Inv cfg s) {path : String} {now : ℚ}
    (hCall : s.calls c = some (.writing path)) : Inv cfg (openFile c now path s) := by
  obtain ⟨hAuto, hFree⟩ := h.phase c _ hCall
  have hPath : (s.calls c).bind Phase.path = some path := by
    rw [hCall]
    rfl
  have hAlone := h.path_alone hPath
  let made : Entry := ⟨path, true, s.nextInode, now, none, s.nextOrder⟩
  have hMade : isAutoSnapshot made = true := by
    rw [isAutoSnapshot, Bool.true_and]
    exact hAuto
  rw [h.openFile_eq hCall]
  refine h.move (dirOk_append h.toDirOk hMade hFree rfl rfl rfl rfl rfl rfl rfl) rfl ?_ ?_ ?_
  · intro path' hPath'
    cases hPath'
    exact hAlone
  · exact ⟨made, List.mem_append_right _ List.mem_cons_self, rfl, rfl, hMade⟩
  · intro d phase' hd hCall'
    refine (h.phase d phase' hCall').congr fun path' hPath' e hName => ?_
    have hOther : path ≠ path' := by
      rintro rfl
      exact hAlone d hd (by rw [hCall']; exact hPath')
    rw [List.mem_append, List.mem_singleton]
    refine or_iff_left ?_
    rintro rfl
    exact hOther hName

/-- A write makes its file the last one, and changes no other. -/
theorem dirOk_touch (h : DirOk cfg s) {s' : State} {inode : Nat} {now : ℚ} {writer : Option Nat}
    (hDir : s'.dir = s.dir.map (Entry.touch inode now writer s.nextOrder))
    (hNextInode : s'.nextInode = s.nextInode) (hNextOrder : s'.nextOrder = s.nextOrder + 1)
    (hGone : s'.gone = s.gone) (hCount : s'.left + s'.begun = s.left + s.begun) :
    DirOk cfg s' := by
  let touch : Entry → Entry := Entry.touch inode now writer s.nextOrder
  have hAutos : s'.autos = s.autos.map touch := by
    rw [State.autos, hDir, List.filter_map]
    exact congrArg (List.map touch) (List.filter_congr fun e _ => isAutoSnapshot_touch ..)
  have hNames : s'.dir.map Entry.name = s.dir.map Entry.name := by
    rw [hDir, List.map_map]
    exact List.map_congr_left fun e _ => Entry.touch_name ..
  have hInodes : s'.dir.map Entry.inode = s.dir.map Entry.inode := by
    rw [hDir, List.map_map]
    exact List.map_congr_left fun e _ => Entry.touch_inode ..
  have hMem : ∀ e ∈ s'.dir, ∃ old ∈ s.dir, touch old = e := fun e he =>
    List.mem_map.mp (hDir ▸ he)
  have hOrder : ∀ e, e.inode = inode ∧ (touch e).order = s.nextOrder ∨
      (touch e).order = e.order := by
    intro e
    by_cases hInode : e.inode = inode
    · exact Or.inl ⟨hInode, congrArg Entry.order (if_pos hInode)⟩
    · exact Or.inr (congrArg Entry.order (if_neg hInode))
  refine ⟨hNames ▸ h.names, hInodes ▸ h.inodes, ?_, ?_, ?_, ?_, ?_, ?_⟩
  · rw [hDir, List.map_map]
    refine List.Nodup.map_on (fun x hx y hy hEq => ?_) h.names.of_map
    have hxLt := h.orderLt x hx
    have hyLt := h.orderLt y hy
    have hEq' : (touch x).order = (touch y).order := hEq
    -- Of two files with one order either both were written, or none.
    rcases hOrder x with ⟨hxInode, hxOrder⟩ | hxOrder <;>
      rcases hOrder y with ⟨hyInode, hyOrder⟩ | hyOrder
    · exact List.inj_on_of_nodup_map h.inodes hx hy (hxInode.trans hyInode.symm)
    · omega
    · omega
    · exact List.inj_on_of_nodup_map h.orders hx hy (hxOrder.symm.trans (hEq'.trans hyOrder))
  · intro e he
    obtain ⟨old, hOld, rfl⟩ := hMem e he
    rw [Entry.touch_inode, hNextInode]
    exact h.inodeLt old hOld
  · intro e he
    obtain ⟨old, hOld, rfl⟩ := hMem e he
    have := h.orderLt old hOld
    rw [hNextOrder]
    rcases hOrder old with ⟨-, hOrder⟩ | hOrder <;> omega
  · intro g hg
    obtain ⟨hLt, hAll⟩ := h.goneLt g (hGone ▸ hg)
    refine ⟨hNextOrder ▸ hLt.trans (Nat.lt_succ_self _), fun e he => ?_⟩
    rw [hAutos] at he
    obtain ⟨old, hOld, rfl⟩ := List.mem_map.mp he
    have := hAll old hOld
    rcases hOrder old with ⟨-, hOrder⟩ | hOrder <;> omega
  · rw [hAutos, List.length_map, hCount]
    exact h.count
  · intro hSome
    rw [hAutos, List.length_map]
    exact h.full (hGone ▸ hSome)

theorem inv_writeFile (h : Inv cfg s) {path : String} {now : ℚ} {inode : Nat}
    (hCall : s.calls c = some (.opened path inode)) :
    Inv cfg (writeFile c now path inode s) := by
  obtain ⟨file, hFile, hFileName, hFileInode, hFileAuto⟩ := h.phase c _ hCall
  have hPath : (s.calls c).bind Phase.path = some path := by
    rw [hCall]
    rfl
  have hAlone := h.path_alone hPath
  let touch : Entry → Entry := Entry.touch inode now (some c) s.nextOrder
  have hUntouched : ∀ e ∈ s.dir, e.name ≠ path → touch e = e := by
    intro e he hName
    refine if_neg fun hInode => hName ?_
    rw [h.eq_of_inode he hFile (hInode.trans hFileInode.symm), hFileName]
  refine h.move (dirOk_touch h.toDirOk rfl rfl rfl rfl rfl) rfl ?_ ?_ ?_
  · intro path' hPath'
    cases hPath'
    exact hAlone
  · refine ⟨touch file, List.mem_map_of_mem hFile, (Entry.touch_name ..).trans hFileName, ?_,
      (isAutoSnapshot_touch ..).trans hFileAuto⟩
    exact congrArg Entry.writer (if_pos hFileInode)
  · intro d phase' hd hCall'
    refine (h.phase d phase' hCall').congr fun path' hPath' e hName => ?_
    have hOther : path' ≠ path := by
      rintro rfl
      exact hAlone d hd (by rw [hCall']; exact hPath')
    constructor
    · intro he
      obtain ⟨old, hOld, rfl⟩ := List.mem_map.mp he
      rw [Entry.touch_name] at hName
      show touch old ∈ s.dir
      rw [hUntouched old hOld (hName ▸ hOther)]
      exact hOld
    · exact fun he => List.mem_map.mpr ⟨e, he, hUntouched e he (hName ▸ hOther)⟩

end Invariant

section Pruning

variable {cfg : Cfg} {s : State} {c : Nat} {listing : List Entry} {stuck : List String}

theorem listAutoSnapshots_perm (hListing : listing.Perm s.dir) :
    (listAutoSnapshots listing).Perm s.autos :=
  (List.perm_insertionSort _ _).trans (hListing.filter _)

theorem listAutoSnapshots_sorted (listing : List Entry) :
    (listAutoSnapshots listing).Pairwise fun x y => x.mtime ≤ y.mtime := by
  have : Std.Total fun a b : Entry => a.mtime ≤ b.mtime := ⟨fun a b => le_total a.mtime b.mtime⟩
  have : IsTrans Entry fun a b => a.mtime ≤ b.mtime := ⟨fun _ _ _ => le_trans⟩
  exact List.pairwise_insertionSort _ _

theorem Inv.autos_orders (h : Inv cfg s) : (s.autos.map Entry.order).Nodup :=
  h.orders.sublist ((List.filter_sublist).map _)

/-- A fit pruning removes the snapshots that are not recent. -/
theorem mem_removed_iff (h : Inv cfg s) (hFit : FitToPrune cfg s stuck)
    (hListing : listing.Perm s.dir) {e : Entry} :
    e ∈ (Retention.stale cfg.keepCount (listAutoSnapshots listing)).filter
        (fun e => e.name ∉ stuck) ↔ e ∈ s.autos ∧ ¬ Recent cfg s e := by
  have hPerm := listAutoSnapshots_perm hListing
  have hStale : ∀ {e}, e ∈ s.autos →
      (e ∈ Retention.stale cfg.keepCount (listAutoSnapshots listing) ↔ ¬ Recent cfg s e) :=
    Retention.mem_stale_iff hPerm (listAutoSnapshots_sorted listing) h.autos_orders hFit.times
  rw [List.mem_filter, decide_eq_true_iff]
  constructor
  · rintro ⟨hMem, -⟩
    have hAuto : e ∈ s.autos := hPerm.mem_iff.mp (List.mem_of_mem_take hMem)
    exact ⟨hAuto, (hStale hAuto).mp hMem⟩
  · rintro ⟨hAuto, hOld⟩
    exact ⟨(hStale hAuto).mpr hOld, hFit.unlinks e hAuto hOld⟩

theorem mem_prune_iff (h : Inv cfg s) (hFit : FitToPrune cfg s stuck)
    (hListing : listing.Perm s.dir) {e : Entry} :
    e ∈ (prune cfg listing stuck s).dir ↔
      e ∈ s.dir ∧ (isAutoSnapshot e = true → Recent cfg s e) := by
  show e ∈ s.dir.filter _ ↔ _
  rw [List.mem_filter, decide_eq_true_iff]
  refine and_congr_right fun he => ?_
  constructor
  · intro hKept hAuto
    by_contra hOld
    refine hKept (List.mem_map.mpr ⟨e, ?_, rfl⟩)
    exact (mem_removed_iff h hFit hListing).mpr ⟨List.mem_filter.mpr ⟨he, hAuto⟩, hOld⟩
  · intro hRecent hRemoved
    obtain ⟨r, hr, hName⟩ := List.mem_map.mp hRemoved
    obtain ⟨hAuto, hOld⟩ := (mem_removed_iff h hFit hListing).mp hr
    obtain ⟨hMem, hAuto⟩ := List.mem_filter.mp hAuto
    rw [h.eq_of_name hMem he hName] at hAuto hOld
    exact hOld (hRecent hAuto)

instance (cfg : Cfg) (s : State) (e : Entry) : Decidable (Recent cfg s e) :=
  inferInstanceAs (Decidable (Retention.Recent ..))

theorem autos_prune (h : Inv cfg s) (hFit : FitToPrune cfg s stuck)
    (hListing : listing.Perm s.dir) :
    (prune cfg listing stuck s).autos = s.autos.filter fun e => Recent cfg s e := by
  have hKept : ∀ e ∈ s.dir, (e ∈ (prune cfg listing stuck s).dir ↔
      (isAutoSnapshot e = true → Recent cfg s e)) :=
    fun e he => (mem_prune_iff h hFit hListing).trans (and_iff_right he)
  rw [State.autos, State.autos, List.filter_filter]
  show (s.dir.filter _).filter isAutoSnapshot = _
  rw [List.filter_filter]
  refine List.filter_congr fun e he => ?_
  rw [Bool.eq_iff_iff, Bool.and_eq_true, Bool.and_eq_true, decide_eq_true_iff (p := Recent cfg s e)]
  constructor
  · rintro ⟨hAuto, hMem⟩
    exact ⟨(hKept e he).mp (List.mem_filter.mpr ⟨he, hMem⟩) hAuto, hAuto⟩
  · rintro ⟨hRecent, hAuto⟩
    exact ⟨hAuto, (List.mem_filter.mp ((hKept e he).mpr fun _ => hRecent)).2⟩

/-- As many snapshots are left as there are, or as are to be kept. -/
theorem length_autos_prune (h : Inv cfg s) (hFit : FitToPrune cfg s stuck)
    (hListing : listing.Perm s.dir) :
    (prune cfg listing stuck s).autos.length = min cfg.keepCount s.autos.length := by
  rw [autos_prune h hFit hListing, ← List.countP_eq_length_filter]
  exact Retention.countP_recent h.autos_orders cfg.keepCount

/-- Whatever was pruned came before what is left. -/
theorem dirOk_prune (h : Inv cfg s) (hFit : FitToPrune cfg s stuck)
    (hListing : listing.Perm s.dir) : DirOk cfg (prune cfg listing stuck s) := by
  have hSublist : (prune cfg listing stuck s).dir.Sublist s.dir := List.filter_sublist
  have hAuto : ∀ {e}, e ∈ (prune cfg listing stuck s).autos → e ∈ s.autos ∧ Recent cfg s e := by
    intro e he
    rw [autos_prune h hFit hListing, List.mem_filter, decide_eq_true_iff] at he
    exact he
  have hLength := length_autos_prune h hFit hListing
  refine ⟨h.names.sublist (hSublist.map _), h.inodes.sublist (hSublist.map _),
    h.orders.sublist (hSublist.map _), fun e he => h.inodeLt e (hSublist.subset he),
    fun e he => h.orderLt e (hSublist.subset he), ?_, le_rfl, ?_⟩
  · intro g hg
    rcases List.mem_append.mp hg with hg | hg
    · exact ⟨(h.goneLt g hg).1, fun e he => (h.goneLt g hg).2 e (hAuto he).1⟩
    · obtain ⟨r, hr, rfl⟩ := List.mem_map.mp hg
      obtain ⟨hOldAuto, hOld⟩ := (mem_removed_iff h hFit hListing).mp hr
      exact ⟨h.orderLt r (List.mem_of_mem_filter hOldAuto), fun e he =>
        Retention.order_lt_of_recent (hAuto he).2 hOld⟩
  · intro hGone
    rw [hLength]
    refine le_min le_rfl ?_
    by_contra hFew
    -- With room for all of them nothing was removed, now or before.
    have hAll : ∀ e ∈ s.autos, Recent cfg s e := fun e _ => by
      have hLater : Retention.later Entry.order s.autos e ≤ s.autos.length := List.countP_le_length
      exact hLater.trans_lt (not_le.mp hFew)
    have hNone : (Retention.stale cfg.keepCount (listAutoSnapshots listing)).filter
        (fun e => e.name ∉ stuck) = [] := by
      refine List.eq_nil_iff_forall_not_mem.mpr fun r hr => ?_
      obtain ⟨hOldAuto, hOld⟩ := (mem_removed_iff h hFit hListing).mp hr
      exact hOld (hAll r hOldAuto)
    refine hFew (h.full fun hEmpty => hGone ?_)
    show s.gone ++ _ = []
    rw [hEmpty, hNone]
    rfl

/-- The file of a call under way outlives the pruning. -/
theorem kept_prune (h : Inv cfg s) (hFit : FitToPrune cfg s stuck)
    (hListing : listing.Perm s.dir) {d : Nat} {path : String} {P : Entry → Prop}
    (hUnderWay : (s.calls d).bind Phase.underWay = some path)
    (hFile : ∃ e ∈ s.dir, e.name = path ∧ P e ∧ isAutoSnapshot e = true) :
    ∃ e ∈ (prune cfg listing stuck s).dir, e.name = path ∧ P e ∧ isAutoSnapshot e = true := by
  obtain ⟨e, he, hName, hP, hAuto⟩ := hFile
  refine ⟨e, (mem_prune_iff h hFit hListing).mpr ⟨he, fun _ => ?_⟩, hName, hP, hAuto⟩
  exact hFit.notOvertaken d path hUnderWay e (List.mem_filter.mpr ⟨he, hAuto⟩) hName

theorem inv_finish (h : Inv cfg s) (hFit : FitToPrune cfg s stuck) (hListing : listing.Perm s.dir)
    {path : String} (hCall : s.calls c = some (.written path)) :
    Inv cfg (finish cfg c path listing stuck s) := by
  have hDir := dirOk_prune h hFit hListing
  have hPath : (s.calls c).bind Phase.path = some path := by
    rw [hCall]
    rfl
  have hAlone := h.path_alone hPath
  have hSubset : ∀ {e}, e ∈ (prune cfg listing stuck s).dir → e ∈ s.dir :=
    fun he => ((mem_prune_iff h hFit hListing).mp he).1
  have hOwn := kept_prune h hFit hListing (d := c) (by rw [hCall]; rfl) (h.phase c _ hCall)
  refine h.move (c := c) ⟨hDir.names, hDir.inodes, hDir.orders, hDir.inodeLt, hDir.orderLt,
    hDir.goneLt, hDir.count, hDir.full⟩ rfl ?_ ?_ ?_
  · intro path' hPath'
    have hSame : path = path' := by
      split_ifs at hPath' <;> exact Option.some.inj hPath'
    exact hSame ▸ hAlone
  · split_ifs
    · exact hOwn
    · intro e he hName
      obtain ⟨file, hFile, hFileName, hWriter, -⟩ := hOwn
      rw [h.eq_of_name (hSubset he) (hSubset hFile) (hName.trans hFileName.symm)]
      exact hWriter
  · intro d phase' hd hCall'
    have hOk := h.phase d phase' hCall'
    cases phase' with
    | building => trivial
    | raised => trivial
    | writing path' => exact ⟨hOk.1, fun e he => hOk.2 e (hSubset he)⟩
    | opened path' inode => exact kept_prune h hFit hListing (d := d) (by rw [hCall']; rfl) hOk
    | written path' => exact kept_prune h hFit hListing (d := d) (by rw [hCall']; rfl) hOk
    | uploading path' => exact kept_prune h hFit hListing (d := d) (by rw [hCall']; rfl) hOk
    | returned path' => exact fun e he hName => hOk e (hSubset he) hName

end Pruning

section Steps

variable {cfg : Cfg} {s s' : State}

/-- What an event can do. -/
inductive Moves (cfg : Cfg) (s : State) : Event → State → Prop
  | idle (e : Event) : Moves cfg s e s
  | call {c : Nat} : Moves cfg s (.call c) (s.setCall c .building)
  | built {c : Nat} {t : WallTime} : Moves cfg s (.built c t) (s.setCall c (.writing (autoName t)))
  | create {c : Nat} {now : ℚ} {path : String} (hCall : s.calls c = some (.writing path)) :
      Moves cfg s (.create c now) (openFile c now path s)
  | write {c : Nat} {now : ℚ} {path : String} {inode : Nat}
      (hCall : s.calls c = some (.opened path inode)) :
      Moves cfg s (.write c now) (writeFile c now path inode s)
  | settle {c : Nat} {path : String} {listing : List Entry} {stuck : List String}
      (hCall : s.calls c = some (.written path)) (hListing : listing.Perm s.dir) :
      Moves cfg s (.settle c listing stuck) (finish cfg c path listing stuck s)
  | uploaded {c : Nat} {path : String} (hCall : s.calls c = some (.uploading path)) :
      Moves cfg s (.uploaded c) (s.setCall c (.returned path))
  | raise {c : Nat} : Moves cfg s (.raise c) (s.setCall c .raised)

theorem step_moves (cfg : Cfg) (s : State) (e : Event) : Moves cfg s e (step cfg s e) := by
  cases e with
  | call c =>
      rw [step]
      split_ifs
      · exact .call
      · exact .idle _
  | built c t =>
      rw [step]
      split
      · exact .built
      · exact .idle _
  | create c now =>
      rw [step]
      split
      · rename_i path hCall
        exact .create hCall
      · exact .idle _
  | write c now =>
      rw [step]
      split
      · rename_i path inode hCall
        exact .write hCall
      · exact .idle _
  | settle c listing stuck =>
      rw [step]
      split
      · rename_i path hCall
        split_ifs with hListing
        · exact .settle hCall hListing
        · exact .idle _
      · exact .idle _
  | uploaded c =>
      rw [step]
      split
      · rename_i path hCall
        exact .uploaded hCall
      · exact .idle _
  | raise c =>
      rw [step]
      split
      · exact .raise
      · exact .raise
      · exact .raise
      · exact .idle _

/-- The call that an event is about. -/
def Event.caller : Event → Nat
  | .call c | .built c _ | .create c _ | .write c _ | .settle c _ _ | .uploaded c | .raise c => c

/-- No call moves another one on. -/
theorem calls_moves {e : Event} (hMoves : Moves cfg s e s') {d : Nat} (hd : d ≠ e.caller) :
    s'.calls d = s.calls d := by
  cases hMoves with
  | idle => rfl
  | call => exact Function.update_of_ne hd _ _
  | built => exact Function.update_of_ne hd _ _
  | create hCall =>
      unfold openFile
      split
      · exact Function.update_of_ne hd _ _
      · split_ifs
        · exact Function.update_of_ne hd _ _
        · exact Function.update_of_ne hd _ _
  | write hCall => exact Function.update_of_ne hd _ _
  | settle hCall hListing => exact Function.update_of_ne hd _ _
  | uploaded hCall => exact Function.update_of_ne hd _ _
  | raise => exact Function.update_of_ne hd _ _

theorem inv_moves {e : Event} (h : Inv cfg s) (hMoves : Moves cfg s e s')
    (hOk : Orderly cfg s e) : Inv cfg s' := by
  cases hMoves with
  | idle => exact h
  | call => exact h.setCall trivial fun path hPath => nomatch hPath
  | @built c t =>
      have hPhase : PhaseOk s.dir c (.writing (autoName t)) := ⟨isAutoName_autoName t, hOk.1⟩
      refine h.setCall hPhase fun path hPath d _ => ?_
      cases hPath
      exact hOk.2 d
  | create hCall => exact inv_openFile h hCall
  | write hCall => exact inv_writeFile h hCall
  | settle hCall hListing => exact inv_finish h hOk hListing hCall
  | @uploaded c path hCall =>
      obtain ⟨file, hFile, hName, hWriter, -⟩ := h.phase c _ hCall
      have hPhase : PhaseOk s.dir c (.returned path) := by
        intro e he hEq
        rw [h.eq_of_name he hFile (hEq.trans hName.symm)]
        exact hWriter
      refine h.setCall hPhase fun path' hPath => ?_
      cases hPath
      exact h.path_alone (by rw [hCall]; rfl)
  | raise => exact h.setCall trivial fun path hPath => nomatch hPath

/-- Only a call that moves to its end has newly returned. -/
theorem returned_of_update {calls : Nat → Option Phase} {c d : Nat} {phase : Phase} {path : String}
    (hOld : calls c ≠ some (.returned path))
    (hNew : Function.update calls d (some phase) c = some (.returned path)) :
    c = d ∧ phase = .returned path := by
  rw [Function.update_apply] at hNew
  split_ifs at hNew with hcd
  · exact ⟨hcd, Option.some.inj hNew⟩
  · exact absurd hNew hOld

theorem survive_moves {e : Event} (h : Inv cfg s) (hMoves : Moves cfg s e s')
    (hOk : Orderly cfg s e) : SnapshotsSurvive cfg s s' := by
  have h' := inv_moves h hMoves hOk
  have hNewest : ∀ g ∈ s'.gone, ∀ e ∈ s'.autos, g < e.order := fun g hg => (h'.goneLt g hg).2
  refine ⟨?_, ?_, ?_, ?_⟩
  · intro c path hCall
    obtain ⟨file, hFile, hName, hWriter, -⟩ := h'.phase c _ hCall
    exact ⟨file, hFile, hName, hWriter⟩
  · intro c path hOld hNew
    cases hMoves with
    | idle => exact absurd hNew hOld
    | call => cases (returned_of_update hOld hNew).2
    | built => cases (returned_of_update hOld hNew).2
    | create hCall =>
        rw [h.openFile_eq hCall] at hNew
        cases (returned_of_update hOld hNew).2
    | write hCall => cases (returned_of_update hOld hNew).2
    | @settle d own _ _ hCall hListing =>
        obtain ⟨rfl, hPhase⟩ := returned_of_update hOld hNew
        have hPath : own = path := by
          split_ifs at hPhase
          exact Phase.returned.inj hPhase
        subst hPath
        obtain ⟨file, hFile, hName, hWriter, -⟩ :=
          kept_prune h hOk hListing (d := c) (by rw [hCall]; rfl) (h.phase c _ hCall)
        refine ⟨⟨file, hFile, hName, hWriter⟩, ?_, hNewest, h'.full⟩
        exact (length_autos_prune h hOk hListing).trans_le (min_le_left _ _)
    | uploaded hCall =>
        obtain ⟨rfl, hPhase⟩ := returned_of_update hOld hNew
        cases hPhase
        obtain ⟨file, hFile, hName, hWriter, -⟩ := h.phase c _ hCall
        exact ⟨⟨file, hFile, hName, hWriter⟩, h.count.trans hOk, hNewest, h'.full⟩
    | raise => cases (returned_of_update hOld hNew).2
  · rintro c d path path' hNe hc hd rfl
    exact hNe (h'.paths c d path (by rw [hc]; rfl) (by rw [hd]; rfl))
  · exact fun c path hCall => h'.phase c _ hCall

/-- In a run all of whose steps are orderly, the snapshots survive every step. -/
theorem snapshots_survive (cfg : Cfg) (existing : Existing) (events : List Event)
    (hOk : Runs.StepsOk (step cfg) (fun _ => Orderly cfg) (start existing) events)
    (before after : List Event) (e : Event) (hStep : events = before ++ e :: after) :
    SnapshotsSurvive cfg (Runs.run (step cfg) (start existing) before)
      (Runs.run (step cfg) (start existing) (before ++ [e])) := by
  subst hStep
  have hInv : Inv cfg (Runs.run (step cfg) (start existing) before) :=
    hOk.of_append.preserves (start_inv cfg existing)
      fun _ s e h hOrderly => inv_moves h (step_moves cfg s e) hOrderly
  rw [Runs.run_concat]
  exact survive_moves hInv (step_moves cfg _ e) (hOk before e after rfl)

/-- Just after half past five on an autumn day. -/
def afternoon : WallTime :=
  ⟨2025, 9, 21, 17, 30, 5, by decide, by decide, by decide, by decide, by decide, by decide⟩

/-- One archive is kept and goes to the cloud as well. -/
def oneInTheCloud : Cfg := ⟨1, true⟩

/-- A snapshot was written at the time `at_`. -/
def oneBefore (at_ : ℚ) : Existing :=
  ⟨[("wattpost-auto-2025-09-20-173000.tar.gz", true, at_)], List.nodup_singleton _⟩

/-- A call up to its pruning. -/
def callUpToPruning (c : Nat) (now : ℚ) : List Event :=
  [.call c, .built c afternoon, .create c now, .write c now]

/-- Call 0 is about to prune; the snapshot before it was written at the time `at_`. -/
def aboutToPrune (cfg : Cfg) (at_ : ℚ) : State :=
  Runs.run (step cfg) (start (oneBefore at_)) (callUpToPruning 0 200)

/-- The call prunes what is there. -/
def settles (s : State) (c : Nat) : Event := .settle c s.dir []

theorem aboutToPrune_calls (cfg : Cfg) (at_ : ℚ) {d : Nat} (hd : d ≠ 0) :
    (aboutToPrune cfg at_).calls d = none := by
  have hStep : ∀ s e, e.caller = 0 → (step cfg s e).calls d = s.calls d :=
    fun s e hCaller => calls_moves (step_moves cfg s e) (hCaller ▸ hd)
  unfold aboutToPrune callUpToPruning Runs.run
  simp only [List.foldl_cons, List.foldl_nil]
  rw [hStep _ _ rfl, hStep _ _ rfl, hStep _ _ rfl, hStep _ _ rfl]
  rfl

theorem snapshots_survive_scheduled :
    SnapshotsSurvive oneInTheCloud (aboutToPrune oneInTheCloud 100)
      (Runs.run (step oneInTheCloud) (start (oneBefore 100))
        (callUpToPruning 0 200 ++ [settles (aboutToPrune oneInTheCloud 100) 0])) := by
  have hFree : Unused (step oneInTheCloud (start (oneBefore 100)) (.call 0))
      (autoName afternoon) := by
    refine ⟨by decide +kernel, fun d hd => ?_⟩
    by_cases hZero : d = 0
    · subst hZero
      cases hd
    · have hNone : (step oneInTheCloud (start (oneBefore 100)) (.call 0)).calls d = none :=
        Function.update_of_ne hZero _ _
      rw [hNone] at hd
      cases hd
  have hFit : FitToPrune oneInTheCloud (aboutToPrune oneInTheCloud 100) [] := by
    refine ⟨by decide +kernel, fun d path hd => ?_, by decide +kernel⟩
    by_cases hZero : d = 0
    · subst hZero
      cases hd
      decide +kernel
    · rw [aboutToPrune_calls _ _ hZero] at hd
      cases hd
  refine snapshots_survive oneInTheCloud (oneBefore 100) _ ?_ (callUpToPruning 0 200) [] _ rfl
  exact Runs.stepsOk_cons.mpr ⟨trivial, Runs.stepsOk_cons.mpr ⟨hFree, Runs.stepsOk_cons.mpr
    ⟨trivial, Runs.stepsOk_cons.mpr ⟨trivial, Runs.stepsOk_cons.mpr ⟨hFit, Runs.stepsOk_nil⟩⟩⟩⟩⟩

/-- The first call has returned, and the second is about to prune in the same second. -/
def sameSecond (cfg : Cfg) : State :=
  let s := aboutToPrune cfg 100
  Runs.run (step cfg) (step cfg s (settles s 0)) (callUpToPruning 1 200)

/-- The clock was ahead when the old snapshot was written, so the new one is taken for older; and
two calls in one second return one path. -/
theorem snapshots_lost :
    ¬ SnapshotsSurvive oneInTheCloud (aboutToPrune oneInTheCloud 1000)
        (step oneInTheCloud (aboutToPrune oneInTheCloud 1000)
          (settles (aboutToPrune oneInTheCloud 1000) 0)) ∧
      ¬ SnapshotsSurvive ⟨7, false⟩ (sameSecond ⟨7, false⟩)
        (step ⟨7, false⟩ (sameSecond ⟨7, false⟩) (settles (sameSecond ⟨7, false⟩) 1)) := by
  constructor
  · intro h
    have hUploading : (step oneInTheCloud (aboutToPrune oneInTheCloud 1000)
        (settles (aboutToPrune oneInTheCloud 1000) 0)).calls 0 =
          some (.uploading (autoName afternoon)) := by decide +kernel
    obtain ⟨e, he, hName, -⟩ := h.uploads 0 _ hUploading
    revert e
    decide +kernel
  · intro h
    have hReturned : ∀ c < 2, (step ⟨7, false⟩ (sameSecond ⟨7, false⟩)
        (settles (sameSecond ⟨7, false⟩) 1)).calls c =
          some (.returned (autoName afternoon)) := by decide +kernel
    have hFirst := hReturned 0 (by decide)
    have hSecond := hReturned 1 (by decide)
    exact h.distinct 0 1 _ _ (by decide) hFirst hSecond rfl

end Steps

end WattPost.Backup.Snapshots
