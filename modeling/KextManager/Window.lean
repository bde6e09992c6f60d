/-
KextManager/Window.lean

What a disabled window protects.  Between `KXKextManagerDisableClearRelationships`
and the enable that brings `clearRelationshipsDisableCount` back to zero, the gate
defers every clear request (`Gate.lean`).  The teardown has two other doors:
`KXKextManagerCalculateVersionRelationships` clears "whether it's enabled or
not", and the rebuild block that opens the reads tests the two stale flags,
never the count.  So a deferred clear takes effect at the next read that goes
through a rebuild block, inside the window or not
(`Manager.ensureRelationships_teardownCount`).

The calls are those of a session together with `_KXKextManagerRemoveRepository`
and `KXKextManagerSendAllKextPersonalitiesToCatalog`, which the session leaves
out because they change the repositories or the dictionary behind the chains.
`Quiet f` says that from a state at a positive count `f` keeps the count, tears
nothing down and keeps a pending clear pending.  The pieces the calls are made
of are quiet, and a rebuild block is quiet on a fresh structure.  A preparation
opens a window of its own; at `INT_MAX` its disable wraps the `int` count to a
negative value, and its disqualifications then tear the structure down.

Main result: a run made inside a window, in which no call is a build, no call
that reaches a rebuild block finds the structure stale, and no preparation that
reaches it is made at `INT_MAX`, tears nothing down, and a clear requested in
it stays pending (`WindowCall.run_quiet`).
-/
import KextManager.Session

namespace KextManager

variable {ι κ : Type}

/-! ### The two calls the session leaves out -/

/-- The repositories other than `r`: what the loop of
`_KXKextManagerRemoveRepository` leaves, removing the entry at every index that
holds the object `r` (`removeRepositoryLoop_eq_filter`). -/
def Repositories.remove (rs : Repositories κ) (r : Repository κ) : Repositories κ :=
  ⟨rs.list.filter (fun r' => r'.handle != r.handle), by
    have h := List.nodup_flatMap.mp rs.nodup
    exact List.nodup_flatMap.mpr ⟨fun r' hr' => h.1 r' (List.mem_of_mem_filter hr'), h.2.filter _⟩,
    rs.handles_nodup.sublist ((List.filter_sublist _).map _)⟩

namespace Manager

variable [DecidableEq ι] [DecidableEq κ]

/-- `_KXKextManagerRemoveRepository`: a clear request, the dependency
relationships cleared, and the repository taken out of the list. -/
def removeRepository (s : Manager ι κ) (aRepository : Repository κ) : Manager ι κ :=
  let s := Internal.clearDependencyRelationships s.clearRelationships
  { s with repositoryList := s.repositoryList.remove aRepository }

/-- The loop of `KXKextManagerSendAllKextPersonalitiesToCatalog` over the
repositories.  `sendCatalogFromCache` is the external
`KXKextRepositorySendCatalogFromCache`: the dictionary it leaves and its
result.  A success marks the structure to be rebuilt. -/
def sendCatalogs
    (sendCatalogFromCache : Repository κ → AList (fun _ : ι => κ) →
      AList (fun _ : ι => κ) × KXKextManagerError) :
    List (Repository κ) → Manager ι κ → Manager ι κ
  | [], s => s
  | r :: rs, s =>
      let p := sendCatalogFromCache r s.candidateKexts
      sendCatalogs sendCatalogFromCache rs
        { s with
          candidateKexts := p.1
          needsCalculateRelationships := if p.2 = .none then true else s.needsCalculateRelationships }

variable [Fintype κ]

/-- `KXKextManagerSendAllKextPersonalitiesToCatalog`: the rebuild block, the
loop of `sendCatalogs`, then the personalities of the entries left are sent
with the external `KXKextManagerSendPersonalitiesToCatalog`, whose result is
`sendPersonalitiesToCatalog`.  With no entry left the result is none; when the
snapshot of the dictionary cannot be allocated it is no memory; when the array
cannot be created nothing is sent and the result is none. -/
def sendAllKextPersonalitiesToCatalog
    (sendCatalogFromCache : Repository κ → AList (fun _ : ι => κ) →
      AList (fun _ : ι => κ) × KXKextManagerError)
    (valuesAllocated arrayCreated : Bool) (sendPersonalitiesToCatalog : KXKextManagerError)
    (s : Manager ι κ) : Manager ι κ × KXKextManagerError :=
  let s := s.ensureRelationships
  let s := sendCatalogs sendCatalogFromCache s.repositoryList.list s
  (s, if s.candidateKexts.entries.length = 0 then .none
    else if !valuesAllocated then .noMemory
    else if !arrayCreated then .none
    else sendPersonalitiesToCatalog)

end Manager

/-! ### The calls of a window -/

/-- The calls: those of a session, and the two that change what lies behind
the chains. -/
inductive WindowCall (ι κ : Type) where
  | session (c : SessionCall ι κ)
  | removeRepository (aRepository : Repository κ)
  | sendAllKextPersonalitiesToCatalog
      (sendCatalogFromCache : Repository κ → AList (fun _ : ι => κ) →
        AList (fun _ : ι => κ) × KXKextManagerError)
      (valuesAllocated arrayCreated : Bool) (sendPersonalitiesToCatalog : KXKextManagerError)

namespace WindowCall

variable [DecidableEq ι] [DecidableEq κ] [Fintype κ]

/-- The effect of one call on the manager. -/
def apply : WindowCall ι κ → Manager ι κ → Manager ι κ
  | session c, s => c.apply s
  | removeRepository aRepository, s => s.removeRepository aRepository
  | sendAllKextPersonalitiesToCatalog sendCatalogFromCache valuesAllocated arrayCreated
      sendPersonalitiesToCatalog, s =>
      (s.sendAllKextPersonalitiesToCatalog sendCatalogFromCache valuesAllocated arrayCreated
        sendPersonalitiesToCatalog).1

/-- The state after a run of calls. -/
def run : List (WindowCall ι κ) → Manager ι κ → Manager ι κ
  | [], s => s
  | c :: cs, s => run cs (c.apply s)

/-- What a call needs to leave a window alone: it is not a build, an enable
leaves the count positive, and a call that reaches a rebuild block finds the
structure fresh; a preparation that gets that far also leaves room below
`INT_MAX` for its own disable. -/
def Deferred : WindowCall ι κ → Manager ι κ → Prop
  | session (.relationship .calculateVersionRelationships), _ => False
  | session (.relationship .enableClearRelationships), s =>
      1 < s.clearRelationshipsDisableCount.toInt
  | session (.relationship _), _ => True
  | session (.setSafeBootMode _), _ => True
  | session (.copyKextsWithIdentifier arrayCreated _), s => arrayCreated = true → s.Fresh
  | session (.prepareKextForLoading env aKext kextName _ _ _), s =>
      s.preparationReachesRebuild env aKext kextName = true →
        s.Fresh ∧ s.clearRelationshipsDisableCount.toInt + 1 < 2 ^ 31
  | session (.loadKextUsingOptions prepareEnv _ aKext kextName _ _ _ _ _), s =>
      s.preparationReachesRebuild prepareEnv aKext kextName = true →
        s.Fresh ∧ s.clearRelationshipsDisableCount.toInt + 1 < 2 ^ 31
  | removeRepository _, _ => True
  | _, s => s.Fresh

/-- A run made inside a window: every call starts at a positive count and
finds what `Deferred` asks. -/
inductive WindowRun : List (WindowCall ι κ) → Manager ι κ → Prop
  | nil (s : Manager ι κ) : WindowRun [] s
  | cons {c : WindowCall ι κ} {cs : List (WindowCall ι κ)} {s : Manager ι κ}
      (hw : 0 < s.clearRelationshipsDisableCount.toInt) (hc : c.Deferred s)
      (tail : WindowRun cs (c.apply s)) : WindowRun (c :: cs) s

end WindowCall

/-! ### Quiet steps -/

namespace Manager

variable [DecidableEq ι] [DecidableEq κ]

/-- The gate's fields with the ghost count of teardowns. -/
def gateView (s : Manager ι κ) : BitVec 32 × Bool × Bool × Nat :=
  (s.clearRelationshipsDisableCount, s.needsClearRelationships, s.needsCalculateRelationships,
    s.teardownCount)

omit [DecidableEq ι] [DecidableEq κ] in
theorem Fresh.of_gateView {s t : Manager ι κ} (h : t.gateView = s.gateView) (hf : s.Fresh) :
    t.Fresh := by
  simp only [gateView, Prod.mk.injEq] at h
  exact ⟨h.2.1.trans hf.1, h.2.2.1.trans hf.2⟩

variable [Fintype κ]

/-- **A rebuild block tears down once per stale flag it meets**: the pending
clear, then the build that follows it. -/
theorem ensureRelationships_teardownCount (s : Manager ι κ) :
    s.ensureRelationships.teardownCount = s.teardownCount +
      if s.needsClearRelationships then 2 else if s.needsCalculateRelationships then 1 else 0 := by
  unfold ensureRelationships
  by_cases hc : s.needsClearRelationships <;> by_cases hn : s.needsCalculateRelationships <;>
    simp [hc, hn, Internal.clearRelationships, clearRepositoryRelationships_eq]

theorem markKmod_gateView (kmod : KmodInfo ι) (I : ι) (s : Manager ι κ) :
    (s.markKmod kmod I).gateView = s.ensureRelationships.gateView := by
  have hv : ∀ (t : Manager ι κ) k, (markLoadedKext kmod t k).gateView = t.gateView := fun _ _ => rfl
  exact walkVersionChain_invariant gateView
    (fun _ _ => walkDuplicateChain_invariant gateView hv _ _ _) _ _ _

/-- On a fresh structure the loop over the kernel's table keeps the gate. -/
theorem checkKmods_gateView : ∀ (kmods : List (KmodInfo ι)) (s : Manager ι κ), s.Fresh →
    (checkKmods kmods s).1.gateView = s.gateView
  | [], _, _ => rfl
  | kmod :: kmods, s, hf => by
      have hm : ∀ I, (s.markKmod kmod I).gateView = s.gateView := fun I => by
        rw [markKmod_gateView, ensureRelationships_of_fresh hf]
      rcases hn : kmod.name with _ | I
      · simp only [checkKmods, hn]
      simp only [checkKmods, hn]
      split_ifs
      · exact checkKmods_gateView kmods s hf
      · exact (checkKmods_gateView kmods _ (hf.of_gateView (hm I))).trans (hm I)
      · exact hm I

theorem checkForLoadedKexts_gateView (kmodInfo : Option (List (KmodInfo ι))) {s : Manager ι κ}
    (hf : s.Fresh) : (s.checkForLoadedKexts kmodInfo).1.gateView = s.gateView := by
  have hm : s.markKextsNotLoaded.gateView = s.gateView := by
    have := congrArg gateView (markKextsNotLoaded_withoutLoaded s); exact this
  cases kmodInfo with
  | none => exact hm
  | some kmods => exact (checkKmods_gateView kmods _ (hf.of_gateView hm)).trans hm

omit [DecidableEq ι] [DecidableEq κ] [Fintype κ] in
theorem sendCatalogs_gate
    (sendCatalogFromCache : Repository κ → AList (fun _ : ι => κ) →
      AList (fun _ : ι => κ) × KXKextManagerError) :
    ∀ (rs : List (Repository κ)) (s : Manager ι κ),
      (sendCatalogs sendCatalogFromCache rs s).clearRelationshipsDisableCount =
          s.clearRelationshipsDisableCount ∧
        (sendCatalogs sendCatalogFromCache rs s).teardownCount = s.teardownCount
  | [], _ => ⟨rfl, rfl⟩
  | _ :: rs, _ => sendCatalogs_gate sendCatalogFromCache rs _

end Manager

/-- `f` leaves a window alone: from a state at a positive count it keeps the
count, tears nothing down, and keeps a pending clear pending. -/
def Quiet (f : Manager ι κ → Manager ι κ) : Prop :=
  ∀ s : Manager ι κ, 0 < s.clearRelationshipsDisableCount.toInt →
    (f s).clearRelationshipsDisableCount = s.clearRelationshipsDisableCount ∧
      (f s).teardownCount = s.teardownCount ∧
      (s.needsClearRelationships = true → (f s).needsClearRelationships = true)

namespace Quiet

variable {f g : Manager ι κ → Manager ι κ}

theorem comp (hf : Quiet f) (hg : Quiet g) : Quiet (g ∘ f) := fun s hw => by
  obtain ⟨hc, ht, hp⟩ := hf s hw
  obtain ⟨hc', ht', hp'⟩ := hg (f s) (hc ▸ hw)
  exact ⟨hc'.trans hc, ht'.trans ht, fun h => hp' (hp h)⟩

theorem foldl {α : Type} {f : Manager ι κ → α → Manager ι κ} (hf : ∀ a, Quiet fun s => f s a) :
    ∀ xs : List α, Quiet fun s => xs.foldl f s
  | [] => fun _ _ => ⟨rfl, rfl, id⟩
  | a :: xs => (hf a).comp (foldl hf xs)

/-- A step that keeps the gate's fields is quiet. -/
theorem of_gateView [DecidableEq ι] [DecidableEq κ] (h : ∀ s, (f s).gateView = s.gateView) :
    Quiet f := fun s _ => by
  have h := h s
  simp only [Manager.gateView, Prod.mk.injEq] at h
  exact ⟨h.1, h.2.2.2, fun hp => h.2.1.trans hp⟩

end Quiet

section Steps

variable [DecidableEq κ]

/-- **The gate defers a clear request at a positive count.** -/
theorem quiet_clearRelationships : Quiet (Manager.clearRelationships : Manager ι κ → _) :=
  fun s hw => by
    rw [Manager.clearRelationships, if_pos hw]
    exact ⟨rfl, rfl, fun _ => rfl⟩

theorem quiet_disqualifyKext (k : κ) : Quiet fun s : Manager ι κ => s.disqualifyKext k :=
  fun _ hw => quiet_clearRelationships _ hw

theorem quiet_setLoadFailed_clearRelationships (k : κ) :
    Quiet fun s : Manager ι κ => (s.setLoadFailed k).clearRelationships :=
  fun _ hw => quiet_clearRelationships _ hw

/-- An enable that leaves the count positive defers a pending clear again. -/
theorem enableClearRelationships_of_one_lt {s : Manager ι κ}
    (h : 1 < s.clearRelationshipsDisableCount.toInt) :
    s.enableClearRelationships.clearRelationshipsDisableCount = s.clearRelationshipsDisableCount - 1 ∧
      s.enableClearRelationships.teardownCount = s.teardownCount ∧
      (s.needsClearRelationships = true → s.enableClearRelationships.needsClearRelationships = true) := by
  have h1 : 0 < (s.clearRelationshipsDisableCount - 1).toInt := by
    rw [toInt_sub_one (by omega)]; omega
  simp only [Manager.enableClearRelationships, if_pos (show 0 < s.clearRelationshipsDisableCount.toInt by omega)]
  split_ifs with hn
  · rw [Manager.clearRelationships, if_pos h1]; exact ⟨rfl, rfl, fun _ => rfl⟩
  · exact ⟨rfl, rfl, fun h => absurd h hn⟩

/-- A nested window opened below `INT_MAX`: disabling, a quiet step, then
enabling again leaves the count where it was, and a clear pending at the
enable is deferred again. -/
theorem Quiet.disable_enable {f : Manager ι κ → Manager ι κ} (hf : Quiet f) {s : Manager ι κ}
    (hw : 0 < s.clearRelationshipsDisableCount.toInt)
    (hm : s.clearRelationshipsDisableCount.toInt + 1 < 2 ^ 31) :
    (f s.disableClearRelationships).enableClearRelationships.clearRelationshipsDisableCount =
        s.clearRelationshipsDisableCount ∧
      (f s.disableClearRelationships).enableClearRelationships.teardownCount = s.teardownCount ∧
      (s.needsClearRelationships = true →
        (f s.disableClearRelationships).enableClearRelationships.needsClearRelationships = true) := by
  have hd := Manager.disableClearRelationships_toInt s hm
  obtain ⟨hc, ht, hp⟩ := hf s.disableClearRelationships (by omega)
  obtain ⟨hc', ht', hp'⟩ := enableClearRelationships_of_one_lt
    (show 1 < (f s.disableClearRelationships).clearRelationshipsDisableCount.toInt by rw [hc]; omega)
  refine ⟨by rw [hc', hc]; exact BitVec.add_sub_cancel _ _, ht'.trans ht, fun h => hp' (hp h)⟩

theorem quiet_internalLoadKextUsingOptions (env : LoadEnvironment) (aKext : κ)
    (kextName symbolDir : Option String) (loadOptions : LoadOptions) (getAddrsFromKernel : Bool)
    (numAddresses : Nat) :
    Quiet fun s : Manager ι κ => (Manager.Internal.loadKextUsingOptions env s aKext kextName
      symbolDir loadOptions getAddrsFromKernel numAddresses).1 := fun s hw => by
  dsimp only [Manager.Internal.loadKextUsingOptions]
  rcases Manager.performLoad_manager env s aKext kextName symbolDir loadOptions getAddrsFromKernel
    numAddresses with e | e <;> split_ifs <;> rw [e]
  · exact quiet_setLoadFailed_clearRelationships aKext s hw
  · exact ⟨rfl, rfl, id⟩
  · exact ((quiet_disqualifyKext aKext).comp (quiet_setLoadFailed_clearRelationships aKext)) s hw
  · exact quiet_disqualifyKext aKext s hw

variable [DecidableEq ι]

theorem quiet_clearDependencyRelationships :
    Quiet (Manager.Internal.clearDependencyRelationships : Manager ι κ → _) :=
  Quiet.of_gateView fun s => by
    simp [Manager.gateView, Manager.Internal.clearDependencyRelationships,
      Manager.clearRepositoryDependencies_eq]

theorem quiet_removeRepository (aRepository : Repository κ) :
    Quiet fun s : Manager ι κ => s.removeRepository aRepository :=
  fun s hw => (quiet_clearRelationships.comp quiet_clearDependencyRelationships) s hw

theorem quiet_resolveAndAuthenticate [Fintype κ] (env : PrepareEnvironment ι κ) (aKext : κ)
    (inauthenticKexts : Option (List κ)) (s : Manager ι κ)
    (hw : 0 < s.clearRelationshipsDisableCount.toInt)
    (hm : s.clearRelationshipsDisableCount.toInt + 1 < 2 ^ 31) :
    (Manager.resolveAndAuthenticate env aKext inauthenticKexts s).manager.clearRelationshipsDisableCount =
        s.clearRelationshipsDisableCount ∧
      (Manager.resolveAndAuthenticate env aKext inauthenticKexts s).manager.teardownCount =
        s.teardownCount := by
  have hr : Quiet fun s : Manager ι κ =>
      (Manager.Internal.clearDependencyRelationships s).resolveDependencies env.resolve aKext :=
    quiet_clearDependencyRelationships.comp (Quiet.of_gateView fun _ => rfl)
  rcases Manager.resolveAndAuthenticate_cases env aKext inauthenticKexts s with ⟨-, e⟩ | ⟨-, bad, e⟩ <;>
    rw [e]
  · exact ((hr s hw).imp id And.left)
  · obtain ⟨hc, ht, -⟩ := hr s hw
    obtain ⟨hc', ht', -⟩ := (Quiet.foldl quiet_disqualifyKext bad).disable_enable (hc ▸ hw) (hc ▸ hm)
    exact ⟨hc'.trans hc, ht'.trans ht⟩

variable [Fintype κ]

/-- A preparation that reaches its rebuild block on a fresh structure, below
`INT_MAX`, keeps the count and tears nothing down, on every path; one rejected
before the block leaves the manager as it was. -/
theorem prepareKextForLoading_gate (env : PrepareEnvironment ι κ) (s : Manager ι κ)
    (aKext : κ) (kextName : Option String) (checkLoadedForDependencies doLoad : Bool)
    (inauthenticKexts : Option (List κ)) (hw : 0 < s.clearRelationshipsDisableCount.toInt)
    (hc : s.preparationReachesRebuild env aKext kextName = true →
      s.Fresh ∧ s.clearRelationshipsDisableCount.toInt + 1 < 2 ^ 31) :
    (Manager.prepareKextForLoading env s aKext kextName checkLoadedForDependencies doLoad
        inauthenticKexts).manager.clearRelationshipsDisableCount = s.clearRelationshipsDisableCount ∧
      (Manager.prepareKextForLoading env s aKext kextName checkLoadedForDependencies doLoad
        inauthenticKexts).manager.teardownCount = s.teardownCount := by
  cases hreach : s.preparationReachesRebuild env aKext kextName
  · rw [(Manager.prepareKextForLoading_of_not_reachesRebuild env hreach _ _ _).1]; exact ⟨rfl, rfl⟩
  obtain ⟨hf, hm⟩ := hc hreach
  have he : s.ensureRelationshipsForLoading = s := by
    simp [Manager.ensureRelationshipsForLoading, hf.1, hf.2]
  rcases Manager.prepareKextForLoading_cases env s aKext kextName checkLoadedForDependencies doLoad
    inauthenticKexts with e | ⟨t, ht, e⟩
  · rw [e]; exact ⟨rfl, rfl⟩
  have hg : t.gateView = s.gateView := by
    rcases ht with rfl | rfl <;> rw [he]
    exact Manager.checkForLoadedKexts_gateView env.kmodInfo hf
  simp only [Manager.gateView, Prod.mk.injEq] at hg
  rcases e with e | e <;> rw [e]
  · exact ⟨hg.1, hg.2.2.2⟩
  · obtain ⟨hc, ht'⟩ := quiet_resolveAndAuthenticate env aKext inauthenticKexts t (hg.1 ▸ hw)
      (hg.1 ▸ hm)
    exact ⟨hc.trans hg.1, ht'.trans hg.2.2.2⟩

theorem loadKextUsingOptions_gate (prepareEnv : PrepareEnvironment ι κ)
    (env : LoadEnvironment) (s : Manager ι κ) (aKext : κ) (kextName symbolDir : Option String)
    (checkLoadedForDependencies doLoad getAddrsFromKernel : Bool) (numAddresses : Nat)
    (hw : 0 < s.clearRelationshipsDisableCount.toInt)
    (hc : s.preparationReachesRebuild prepareEnv aKext kextName = true →
      s.Fresh ∧ s.clearRelationshipsDisableCount.toInt + 1 < 2 ^ 31) :
    (Manager.loadKextUsingOptions prepareEnv env s aKext kextName symbolDir
        checkLoadedForDependencies doLoad getAddrsFromKernel numAddresses).1.teardownCount =
      s.teardownCount := by
  obtain ⟨hc, ht⟩ := prepareKextForLoading_gate prepareEnv s aKext kextName
    checkLoadedForDependencies doLoad none hw hc
  dsimp only [Manager.loadKextUsingOptions]
  split_ifs
  · exact ht
  all_goals exact ((quiet_internalLoadKextUsingOptions env aKext kextName symbolDir _
    getAddrsFromKernel numAddresses) _ (hc.symm ▸ hw)).2.1.trans ht

end Steps

/-! ### Runs inside a window -/

namespace WindowCall

variable [DecidableEq ι] [DecidableEq κ] [Fintype κ]

/-- **One call inside a window** tears nothing down and keeps a pending clear
pending. -/
theorem apply_quiet {c : WindowCall ι κ} {s : Manager ι κ}
    (hw : 0 < s.clearRelationshipsDisableCount.toInt) (hc : c.Deferred s) :
    (c.apply s).teardownCount = s.teardownCount ∧
      (s.needsClearRelationships = true → (c.apply s).needsClearRelationships = true) := by
  have fresh : s.Fresh → (c.apply s).teardownCount = s.teardownCount →
      (c.apply s).teardownCount = s.teardownCount ∧
        (s.needsClearRelationships = true → (c.apply s).needsClearRelationships = true) :=
    fun hf ht => ⟨ht, fun h => absurd (hf.1 ▸ h) Bool.false_ne_true⟩
  cases c with
  | session c =>
      cases c with
      | relationship op =>
          cases op with
          | calculateVersionRelationships => exact False.elim hc
          | resolveAllKextDependencies resolve mallocOk =>
              have h := Manager.resolveAllKextDependencies_withoutResolution resolve mallocOk s
              exact ⟨Manager.teardownCount_eq_of_withoutResolution h,
                fun hp => (congrArg Manager.needsClearRelationships h).trans hp⟩
          | clearRelationships => exact (quiet_clearRelationships s hw).2
          | disableClearRelationships => exact ⟨rfl, id⟩
          | enableClearRelationships => exact (enableClearRelationships_of_one_lt hc).2
      | getKextWithIdentifierAndVersionNumber identifier versionNumber =>
          refine fresh hc ?_
          simp only [apply, SessionCall.apply, Manager.getKextWithIdentifierAndVersionNumber_manager,
            Manager.ensureRelationships_of_fresh hc]
      | getKextWithIdentifierCompatibleWithVersionNumber isCompatible identifier versionNumber =>
          refine fresh hc ?_
          simp only [apply, SessionCall.apply,
            Manager.getKextWithIdentifierCompatibleWithVersionNumber_manager,
            Manager.ensureRelationships_of_fresh hc]
      | getLoadedOrLatestKextWithIdentifier kmodInfo identifier =>
          refine fresh hc ?_
          show (s.ensureRelationships.checkForLoadedKexts kmodInfo).1.teardownCount = _
          rw [Manager.ensureRelationships_of_fresh hc]
          exact congrArg (fun v : BitVec 32 × Bool × Bool × Nat => v.2.2.2)
            (Manager.checkForLoadedKexts_gateView kmodInfo hc)
      | copyKextsWithIdentifier arrayCreated identifier =>
          cases arrayCreated
          · exact ⟨rfl, id⟩
          · refine fresh (hc rfl) ?_
            simp only [apply, SessionCall.apply, Manager.copyKextsWithIdentifier_manager,
              Manager.ensureRelationships_of_fresh (hc rfl), if_true]
      | copyAllKextPersonalities arrayCreated valuesAllocated =>
          refine fresh hc ?_
          simp only [apply, SessionCall.apply, Manager.copyAllKextPersonalities_manager,
            Manager.ensureRelationships_of_fresh hc]
      | prepareKextForLoading env aKext kextName checkLoadedForDependencies doLoad inauthenticKexts =>
          cases hreach : s.preparationReachesRebuild env aKext kextName
          · -- rejected before the rebuild block
            have e := (Manager.prepareKextForLoading_of_not_reachesRebuild env hreach
              checkLoadedForDependencies doLoad inauthenticKexts).1
            simp [apply, SessionCall.apply, e]
          · exact fresh (hc hreach).1 (prepareKextForLoading_gate env s aKext kextName
              checkLoadedForDependencies doLoad inauthenticKexts hw hc).2
      | loadKextUsingOptions prepareEnv env aKext kextName symbolDir checkLoadedForDependencies
          doLoad getAddrsFromKernel numAddresses =>
          cases hreach : s.preparationReachesRebuild prepareEnv aKext kextName
          · -- rejected before the rebuild block: the load is not attempted
            obtain ⟨e, hr⟩ := Manager.prepareKextForLoading_of_not_reachesRebuild prepareEnv hreach
              checkLoadedForDependencies doLoad none
            simp [apply, SessionCall.apply, Manager.loadKextUsingOptions, hr, e]
          · exact fresh (hc hreach).1 (loadKextUsingOptions_gate prepareEnv env s aKext kextName
              symbolDir checkLoadedForDependencies doLoad getAddrsFromKernel numAddresses hw hc)
      | setSafeBootMode flag => exact ⟨rfl, id⟩
  | removeRepository aRepository => exact (quiet_removeRepository aRepository s hw).2
  | sendAllKextPersonalitiesToCatalog sendCatalogFromCache valuesAllocated arrayCreated
      sendPersonalitiesToCatalog =>
      refine fresh hc ?_
      simp only [apply, Manager.sendAllKextPersonalitiesToCatalog, Manager.ensureRelationships_of_fresh hc]
      exact (Manager.sendCatalogs_gate sendCatalogFromCache _ s).2

/-- **Nothing is torn down inside a window.**  Along every run of calls each
made at a positive count, with no enable that brings the count to zero, no
build, no call that reaches a rebuild block made on a stale structure, and no
preparation that reaches it made at `INT_MAX`, the structure is never torn
down and a clear requested before or during the run is still pending at its
end. -/
theorem run_quiet {cs : List (WindowCall ι κ)} {s : Manager ι κ} (h : WindowRun cs s) :
    (run cs s).teardownCount = s.teardownCount ∧
      (s.needsClearRelationships = true → (run cs s).needsClearRelationships = true) := by
  induction h with
  | nil => exact ⟨rfl, id⟩
  | cons hw hc _ ih =>
      obtain ⟨ht, hp⟩ := apply_quiet hw hc
      exact ⟨ih.1.trans ht, fun h => ih.2 (hp h)⟩

end WindowCall

/-- A window opened on a built structure: a lookup, the removal of the one
repository, a nested disable, a clear request and the enable of the nested
window. -/
def nestedWindow : List (WindowCall Nat (Fin 2)) :=
  [.session (.getKextWithIdentifierAndVersionNumber 0 none), .removeRepository ⟨0, [0, 1], []⟩,
    .session (.relationship .disableClearRelationships), .session (.relationship .clearRelationships),
    .session (.relationship .enableClearRelationships)]

/-- The run `nestedWindow` tears nothing down and the clear stays pending. -/
theorem run_quiet_sameVersionPair :
    WindowCall.WindowRun nestedWindow
        sameVersionPair.calculateVersionRelationships.disableClearRelationships ∧
      (WindowCall.run nestedWindow
        sameVersionPair.calculateVersionRelationships.disableClearRelationships).teardownCount =
        sameVersionPair.calculateVersionRelationships.disableClearRelationships.teardownCount ∧
      (sameVersionPair.calculateVersionRelationships.disableClearRelationships.needsClearRelationships =
          true →
        (WindowCall.run nestedWindow
          sameVersionPair.calculateVersionRelationships.disableClearRelationships).needsClearRelationships =
          true) :=
  have h : WindowCall.WindowRun nestedWindow
      sameVersionPair.calculateVersionRelationships.disableClearRelationships :=
    .cons (by decide) (And.intro rfl rfl) (.cons (by decide) trivial (.cons (by decide) trivial
      (.cons (by decide) trivial (.cons (by decide) (by show 1 < _; decide) (.nil _)))))
  ⟨h, WindowCall.run_quiet h⟩

/-- A build, a disable and a clear request, then a lookup: inside the window,
at count one, the lookup's rebuild block tears the structure down and builds it
again. -/
theorem getKextWithIdentifier_tears_down_in_window :
    (SessionCall.run [.relationship .calculateVersionRelationships,
        .relationship .disableClearRelationships, .relationship .clearRelationships]
        sameVersionPair).clearRelationshipsDisableCount = 1 ∧
      (SessionCall.run [.relationship .calculateVersionRelationships,
        .relationship .disableClearRelationships, .relationship .clearRelationships,
        .getKextWithIdentifierAndVersionNumber 0 none] sameVersionPair).clearRelationshipsDisableCount =
        1 ∧
      (SessionCall.run [.relationship .calculateVersionRelationships,
        .relationship .disableClearRelationships, .relationship .clearRelationships,
        .getKextWithIdentifierAndVersionNumber 0 none] sameVersionPair).teardownCount =
        (SessionCall.run [.relationship .calculateVersionRelationships,
          .relationship .disableClearRelationships, .relationship .clearRelationships]
          sameVersionPair).teardownCount + 2 := by
  decide

end KextManager
