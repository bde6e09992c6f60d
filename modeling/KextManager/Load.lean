/-
KextManager/Load.lean

Loading: `_KXKextManagerLoadKextUsingOptions`, the execution step, and
`KXKextManagerLoadKextUsingOptions`, which prepares the kext and, if the
preparation succeeds, loads it; `KXKextManagerLoadKext` and
`KXKextManagerLoadKextWithIdentifier` call it with their defaults.

The execution step reads the outside world through `LoadEnvironment`: the
dependency graph `_KXKextCreateDgraph` builds, the allocations, the address
requests, and either the in-task `kload_load_dgraph` or, when loads are not
performed in the task, the status `waitpid` reports of the forked child.  The
symbol file names are measured in bytes, as `strlen` counts them.  All of its
exits meet at `finish`, where any result but none and "already loaded" marks
the kext `loadFailed` and asks for the relationships to be cleared.

`LoadFails` lists, in the specification's words, the outcomes after which a
load fails; `performLoad_failsLoad_iff` says the body reaches `finish` with a
failed load's result exactly after them.  Main result:
`loadKextUsingOptions_loadFailed`, for every state, kext and outcome of every
step: the flag is raised exactly on the target, exactly when the preparation
succeeded and a failing outcome followed; the call then returns a failed
load's result, the structure needs recalculation, at any disable depth, and
the next rebuild leaves the target out of every chain.
-/
import KextManager.Prepare

namespace KextManager

variable {ι κ : Type}

/-- What `waitpid` reports of the forked load task. -/
inductive WaitStatus where
  /-- `WIFEXITED`: the child called `exit(result)`, so its status is a result. -/
  | exited (status : KXKextManagerError)
  /-- `WIFSIGNALED`. -/
  | signaled (signal : Nat)
  /-- `WIFSTOPPED`. -/
  | stopped
  /-- None of the three. -/
  | unknown
  deriving DecidableEq, Repr

/-- The result the parent takes from the child's status. -/
def WaitStatus.result : WaitStatus → KXKextManagerError
  | .exited status => status
  | .signaled _ => .childTask
  | .stopped => .childTask
  | .unknown => .childTask

/-- The load options `_KXKextManagerLoadKextUsingOptions` tests
(`IOOptionBits load_options`): no load, a load requested by kextd, a prelink,
and any other load. -/
inductive LoadOptions where
  | none | kextd | prelink | load
  deriving DecidableEq, Repr

/-- An entry of the dependency graph, as the load reads it. -/
structure DgraphEntry where
  isKernelComponent : Bool
  isSymbolSet : Bool
  /-- `strlen(entry->expected_kmod_name)`: its bytes. -/
  expectedKmodNameLength : Nat
  deriving DecidableEq, Repr

/-- The outside world of one execution step. -/
structure LoadEnvironment where
  /-- `_KXKextCopyCanonicalPathnameAsCString` succeeds. -/
  canonicalPathname : Bool
  /-- `_KXKextCreateDgraph`: `none` when it fails; an entry is `none` when its
  slot is NULL. -/
  dgraph : Option (List (Option DgraphEntry))
  /-- The `malloc` of the symbol file names succeeds. -/
  linkOutputFileAlloc : Bool
  /-- `kload_set_load_addresses_from_args`. -/
  setLoadAddresses : KXKextManagerError
  /-- `kload_request_load_addresses`. -/
  requestLoadAddresses : KXKextManagerError
  /-- `fork()` and `waitpid`: `none` when the fork fails, else the child's status. -/
  fork : Option WaitStatus
  /-- `kload_load_dgraph`, run in the task. -/
  loadDgraph : KXKextManagerError

/-- `MAXPATHLEN`. -/
def MAXPATHLEN : Nat := 1024

/-- Whether the loop over the dependency graph names a symbol file for the
entry: every entry but a kernel component that is not a symbol set. -/
def DgraphEntry.namesSymbolFile (entry : DgraphEntry) : Bool :=
  !(entry.isKernelComponent && !entry.isSymbolSet)

/-- `strlen(symbol_dir) + 1 + strlen(entry->expected_kmod_name) +
strlen(".sym") + 1`: the bytes of the symbol file's name and its NUL. -/
def symbolFileLength (dir : String) (entry : DgraphEntry) : Nat :=
  dir.utf8ByteSize + 1 + entry.expectedKmodNameLength + ".sym".length + 1

/-- The loop over the dependency graph that names the symbol files: the first
error, if any (a NULL entry, a file name of `MAXPATHLEN` bytes or more, a
failed allocation).  The `kload_error_*` codes are read as the manager's codes
of the same name. -/
def checkDgraphEntries (symbolDir : Option String) (linkOutputFileAlloc : Bool) :
    List (Option DgraphEntry) → Option KXKextManagerError
  | [] => none
  | none :: _ => some .unspecified
  | some entry :: entries =>
      if entry.isKernelComponent && !entry.isSymbolSet then
        checkDgraphEntries symbolDir linkOutputFileAlloc entries
      else
        match symbolDir with
        | none => checkDgraphEntries symbolDir linkOutputFileAlloc entries
        | some dir =>
            if MAXPATHLEN ≤ symbolFileLength dir entry then some .invalidArgument
            else if !linkOutputFileAlloc then some .noMemory
            else checkDgraphEntries symbolDir linkOutputFileAlloc entries

/-- An entry the loop stops at: a NULL slot, or an entry naming a symbol file
in `symbolDir` whose name would not fit `MAXPATHLEN` or cannot be
allocated. -/
def EntryFails (symbolDir : Option String) (linkOutputFileAlloc : Bool) :
    Option DgraphEntry → Prop
  | none => True
  | some entry => entry.namesSymbolFile = true ∧ ∃ dir, symbolDir = some dir ∧
      (MAXPATHLEN ≤ symbolFileLength dir entry ∨ linkOutputFileAlloc = false)

/-- **The loop over the graph** stops with an error exactly when some entry
fails. -/
theorem checkDgraphEntries_isSome_iff (symbolDir : Option String) (linkOutputFileAlloc : Bool) :
    ∀ g : List (Option DgraphEntry), (checkDgraphEntries symbolDir linkOutputFileAlloc g).isSome ↔
      ∃ e ∈ g, EntryFails symbolDir linkOutputFileAlloc e
  | [] => by simp [checkDgraphEntries]
  | none :: _ => by simp [checkDgraphEntries, EntryFails]
  | some entry :: g => by
      have ih := checkDgraphEntries_isSome_iff symbolDir linkOutputFileAlloc g
      simp only [List.mem_cons, exists_eq_or_imp]
      by_cases hk : (entry.isKernelComponent && !entry.isSymbolSet) = true
      · simp [checkDgraphEntries, hk, ih, EntryFails, DgraphEntry.namesSymbolFile]
      · rcases symbolDir with _ | dir
        · simp [checkDgraphEntries, hk, ih, EntryFails]
        · by_cases hl : MAXPATHLEN ≤ symbolFileLength dir entry <;> cases linkOutputFileAlloc <;>
            simp [checkDgraphEntries, hk, hl, ih, EntryFails, DgraphEntry.namesSymbolFile]

/-- The results the `finish` of `_KXKextManagerLoadKextUsingOptions` takes for a
failed load: any but none and "already loaded". -/
def KXKextManagerError.FailsLoad (result : KXKextManagerError) : Prop :=
  result ≠ .none ∧ result ≠ .alreadyLoaded

instance (result : KXKextManagerError) : Decidable result.FailsLoad :=
  inferInstanceAs (Decidable (_ ∧ _))

/-- A status of the forked child after which the load has failed: an exit with
a failed load's result, a signal, a stop, or anything else. -/
def WaitStatus.Fails : WaitStatus → Prop
  | .exited status => status.FailsLoad
  | _ => True

/-- The address block: `kload_set_load_addresses_from_args` when addresses
are given, else `kload_request_load_addresses`; the result it ends the body
with, none when the body goes on. -/
def loadAddresses (env : LoadEnvironment) (numAddresses : Nat) : Option KXKextManagerError :=
  if 0 < numAddresses then
    if env.setLoadAddresses = .invalidArgument then some .invalidArgument
    else if env.setLoadAddresses ≠ .none then some .unspecified else none
  else if env.requestLoadAddresses ≠ .none then some .unspecified else none

/-- "Perform the load": the status of the forked child, or `kload_load_dgraph`
run in the task. -/
def loadResult (env : LoadEnvironment) (performLoadsInTask : Bool) : KXKextManagerError :=
  if !performLoadsInTask then
    match env.fork with
    | none => .unspecified
    | some status => status.result
  else env.loadDgraph

/-- Whether the step asks for load addresses: symbols only, with a symbol
directory, and the addresses not to be read from the kernel. -/
def requestsAddresses (symbolDir : Option String) (loadOptions : LoadOptions)
    (getAddrsFromKernel : Bool) : Bool :=
  loadOptions = .none && symbolDir.isSome && !getAddrsFromKernel

/-- **The outcomes after which a load fails**, as the specification lists
them: the path name of an unnamed kext cannot be made; the dependency graph
cannot be built; an entry of it fails (`EntryFails`); the load addresses asked
for cannot be set from the arguments or requested; and then, with loads in the
task, the link and load fails, and otherwise the fork fails or the child's
status is a failure. -/
def LoadFails (env : LoadEnvironment) (performLoadsInTask : Bool) (kextName symbolDir : Option String)
    (loadOptions : LoadOptions) (getAddrsFromKernel : Bool) (numAddresses : Nat) : Prop :=
  (kextName = none ∧ env.canonicalPathname = false) ∨ env.dgraph = none ∨
    (∃ g, env.dgraph = some g ∧ ∃ e ∈ g, EntryFails symbolDir env.linkOutputFileAlloc e) ∨
    (requestsAddresses symbolDir loadOptions getAddrsFromKernel = true ∧
      if 0 < numAddresses then env.setLoadAddresses ≠ .none else env.requestLoadAddresses ≠ .none) ∨
    if performLoadsInTask then env.loadDgraph.FailsLoad
    else env.fork = none ∨ ∃ status, env.fork = some status ∧ status.Fails

namespace Manager

variable [DecidableEq ι] [DecidableEq κ]

/-- The body of `_KXKextManagerLoadKextUsingOptions` up to its `finish` label:
the manager, changed only by the disqualification of a kext whose graph
cannot be built, and the result. -/
def performLoad (env : LoadEnvironment) (s : Manager ι κ) (aKext : κ) (kextName : Option String)
    (symbolDir : Option String) (loadOptions : LoadOptions) (getAddrsFromKernel : Bool)
    (numAddresses : Nat) : Manager ι κ × KXKextManagerError :=
  if kextName.isNone && !env.canonicalPathname then (s, .noMemory)
  else
    let doPrelink := symbolDir.isSome && loadOptions = .prelink
    let doLoad := !doPrelink && loadOptions ≠ .none
    match env.dgraph with
    | none => (s.disqualifyKext aKext, .unspecified)
    | some dgraph =>
        match checkDgraphEntries symbolDir env.linkOutputFileAlloc dgraph with
        | some result => (s, result)
        | none =>
            let addresses : Option KXKextManagerError :=
              if !doLoad && !doPrelink && symbolDir.isSome && !getAddrsFromKernel then
                loadAddresses env numAddresses
              else none
            match addresses with
            | some result => (s, result)
            | none => (s, loadResult env s.performLoadsInTask)

/-- `KXKextSetLoadFailed(aKext, true)`. -/
def setLoadFailed (s : Manager ι κ) (aKext : κ) : Manager ι κ :=
  s.modifyKext aKext fun r => { r with loadFailed := true }

namespace Internal

/-- `_KXKextManagerLoadKextUsingOptions`: the body, then at `finish` a failure
other than "already loaded" marks the kext and clears the relationships. -/
def loadKextUsingOptions (env : LoadEnvironment) (s : Manager ι κ) (aKext : κ)
    (kextName : Option String) (symbolDir : Option String) (loadOptions : LoadOptions)
    (getAddrsFromKernel : Bool) (numAddresses : Nat) : Manager ι κ × KXKextManagerError :=
  let r := performLoad env s aKext kextName symbolDir loadOptions getAddrsFromKernel numAddresses
  if r.2 ≠ .none ∧ r.2 ≠ .alreadyLoaded then ((r.1.setLoadFailed aKext).clearRelationships, r.2)
  else r

end Internal

/-! ### Which outcomes fail a load -/

theorem checkDgraphEntries_failsLoad {symbolDir : Option String} {linkOutputFileAlloc : Bool} :
    ∀ {g : List (Option DgraphEntry)} {result : KXKextManagerError},
      checkDgraphEntries symbolDir linkOutputFileAlloc g = some result → result.FailsLoad
  | [], _, h => nomatch h
  | none :: _, _, h => by cases h; decide
  | some entry :: g, result, h => by
      simp only [checkDgraphEntries] at h
      by_cases hk : (entry.isKernelComponent && !entry.isSymbolSet) = true
      · rw [if_pos hk] at h; exact checkDgraphEntries_failsLoad h
      rw [if_neg hk] at h
      rcases symbolDir with _ | dir
      · exact checkDgraphEntries_failsLoad h
      dsimp only at h
      split_ifs at h
      · cases h; decide
      · cases h; decide
      · exact checkDgraphEntries_failsLoad h

theorem WaitStatus.result_failsLoad_iff (status : WaitStatus) :
    status.result.FailsLoad ↔ status.Fails := by
  cases status <;> simp [WaitStatus.result, WaitStatus.Fails, KXKextManagerError.FailsLoad]

/-- The address block stops the body exactly when its call fails, and then
with a failed load's result. -/
theorem loadAddresses_spec (env : LoadEnvironment) (numAddresses : Nat) :
    ((loadAddresses env numAddresses).isSome ↔
        if 0 < numAddresses then env.setLoadAddresses ≠ .none else env.requestLoadAddresses ≠ .none) ∧
      ∀ result, loadAddresses env numAddresses = some result → result.FailsLoad := by
  unfold loadAddresses
  split_ifs <;> simp_all [KXKextManagerError.FailsLoad]

theorem loadResult_failsLoad_iff (env : LoadEnvironment) (performLoadsInTask : Bool) :
    (loadResult env performLoadsInTask).FailsLoad ↔
      if performLoadsInTask then env.loadDgraph.FailsLoad
      else env.fork = none ∨ ∃ status, env.fork = some status ∧ status.Fails := by
  unfold loadResult
  cases performLoadsInTask
  · rcases env.fork with _ | status
    · simp [KXKextManagerError.FailsLoad]
    · simp [WaitStatus.result_failsLoad_iff]
  · rfl

/-- The test of `_KXKextManagerLoadKextUsingOptions` for asking load addresses
is `requestsAddresses`. -/
theorem requestsAddresses_eq (symbolDir : Option String) (loadOptions : LoadOptions)
    (getAddrsFromKernel : Bool) :
    (!(!(symbolDir.isSome && decide (loadOptions = .prelink)) && decide (loadOptions ≠ .none)) &&
        !(symbolDir.isSome && decide (loadOptions = .prelink)) && symbolDir.isSome &&
        !getAddrsFromKernel) = requestsAddresses symbolDir loadOptions getAddrsFromKernel := by
  cases symbolDir <;> cases loadOptions <;> rfl

omit [DecidableEq ι] in
/-- **The step fails exactly on the failing outcomes.**  The result the body of
`_KXKextManagerLoadKextUsingOptions` reaches `finish` with is a failed load's
exactly when one of the outcomes `LoadFails` lists happened. -/
theorem performLoad_failsLoad_iff (env : LoadEnvironment) (s : Manager ι κ) (aKext : κ)
    (kextName symbolDir : Option String) (loadOptions : LoadOptions) (getAddrsFromKernel : Bool)
    (numAddresses : Nat) :
    (performLoad env s aKext kextName symbolDir loadOptions getAddrsFromKernel numAddresses).2.FailsLoad ↔
      LoadFails env s.performLoadsInTask kextName symbolDir loadOptions getAddrsFromKernel
        numAddresses := by
  dsimp only [performLoad, LoadFails]
  by_cases h₁ : (kextName.isNone && !env.canonicalPathname) = true
  · -- no path name for an unnamed kext
    rw [if_pos h₁]
    exact iff_of_true (show KXKextManagerError.FailsLoad .noMemory by decide)
      (.inl (by simpa [Option.isNone_iff_eq_none] using h₁))
  have hn : ¬(kextName = none ∧ env.canonicalPathname = false) := by
    simpa [Option.isNone_iff_eq_none] using h₁
  rw [if_neg h₁, requestsAddresses_eq]
  rcases hg : env.dgraph with _ | g
  · exact iff_of_true (show KXKextManagerError.FailsLoad .unspecified by decide) (.inr (.inl rfl))
  simp only [hn, false_or, reduceCtorEq, Option.some.injEq, exists_eq_left']
  rcases hc : checkDgraphEntries symbolDir env.linkOutputFileAlloc g with _ | result
  · -- every entry passes: the addresses, then the load
    have he : ¬∃ e ∈ g, EntryFails symbolDir env.linkOutputFileAlloc e := by
      rw [← checkDgraphEntries_isSome_iff, hc]; simp
    obtain ⟨hsome, hfail⟩ := loadAddresses_spec env numAddresses
    simp only [he, false_or]
    cases requestsAddresses symbolDir loadOptions getAddrsFromKernel
    · simp [loadResult_failsLoad_iff]
    · rcases ha : loadAddresses env numAddresses with _ | result
      · rw [ha] at hsome
        simp only [if_true, true_and, loadResult_failsLoad_iff]
        exact (or_iff_right fun h => by simpa using hsome.mpr h).symm
      · rw [ha] at hsome
        exact iff_of_true (hfail result ha) (.inl ⟨rfl, hsome.mp rfl⟩)
  · exact iff_of_true (checkDgraphEntries_failsLoad hc)
      (.inl ((checkDgraphEntries_isSome_iff _ _ g).mp (by rw [hc]; rfl)))

/-! ### What a load does to the flag -/

omit [DecidableEq ι] in
/-- The body changes the manager only by disqualifying the kext. -/
theorem performLoad_manager (env : LoadEnvironment) (s : Manager ι κ) (aKext : κ)
    (kextName symbolDir : Option String) (loadOptions : LoadOptions) (getAddrsFromKernel : Bool)
    (numAddresses : Nat) :
    (performLoad env s aKext kextName symbolDir loadOptions getAddrsFromKernel numAddresses).1 = s ∨
      (performLoad env s aKext kextName symbolDir loadOptions getAddrsFromKernel
        numAddresses).1 = s.disqualifyKext aKext := by
  unfold performLoad
  dsimp only
  repeat' split
  all_goals first | exact .inl rfl | exact .inr rfl

omit [DecidableEq ι] in
theorem performLoad_kexts (env : LoadEnvironment) (s : Manager ι κ) (aKext : κ)
    (kextName symbolDir : Option String) (loadOptions : LoadOptions) (getAddrsFromKernel : Bool)
    (numAddresses : Nat) :
    (performLoad env s aKext kextName symbolDir loadOptions getAddrsFromKernel
      numAddresses).1.kexts = s.kexts := by
  rcases performLoad_manager env s aKext kextName symbolDir loadOptions getAddrsFromKernel
    numAddresses with h | h <;> rw [h]
  exact disqualifyKext_kexts s aKext

omit [DecidableEq ι] in
theorem setLoadFailed_kexts (s : Manager ι κ) (aKext m : κ) :
    ((s.setLoadFailed aKext).kexts m).loadFailed = ((s.kexts m).loadFailed || decide (m = aKext)) := by
  unfold setLoadFailed
  by_cases h : m = aKext
  · subst h; simp
  · simp [h]

omit [DecidableEq ι] in
/-- The execution step raises the flag exactly on its kext, exactly when one of
the failing outcomes happened; its result is then a failed load's, and the
structure needs recalculation, at any disable depth. -/
theorem Internal.loadKextUsingOptions_loadFailed_kexts (env : LoadEnvironment)
    (s : Manager ι κ) (aKext : κ) (kextName symbolDir : Option String) (loadOptions : LoadOptions)
    (getAddrsFromKernel : Bool) (numAddresses : Nat) (m : κ) :
    (((Internal.loadKextUsingOptions env s aKext kextName symbolDir loadOptions getAddrsFromKernel
        numAddresses).1.kexts m).loadFailed = true ↔
      (s.kexts m).loadFailed = true ∨ m = aKext ∧
        LoadFails env s.performLoadsInTask kextName symbolDir loadOptions getAddrsFromKernel
          numAddresses) ∧
    (LoadFails env s.performLoadsInTask kextName symbolDir loadOptions getAddrsFromKernel numAddresses ↔
      (Internal.loadKextUsingOptions env s aKext kextName symbolDir loadOptions getAddrsFromKernel
        numAddresses).2.FailsLoad) ∧
    (LoadFails env s.performLoadsInTask kextName symbolDir loadOptions getAddrsFromKernel numAddresses →
      (Internal.loadKextUsingOptions env s aKext kextName symbolDir loadOptions getAddrsFromKernel
        numAddresses).1.needsCalculateRelationships = true) := by
  have hk := performLoad_kexts env s aKext kextName symbolDir loadOptions getAddrsFromKernel
    numAddresses
  rw [← performLoad_failsLoad_iff env s aKext]
  dsimp only [Internal.loadKextUsingOptions]
  split_ifs with h
  · -- a failed load: the flag is raised and a clear requested
    simp only [Manager.clearRelationships_kexts, setLoadFailed_kexts, hk,
      Manager.clearRelationships_needsCalculateRelationships]
    simp [h, KXKextManagerError.FailsLoad]
  · simp [hk, h, KXKextManagerError.FailsLoad]

/-- A stale structure is rebuilt by the lookups' opening block, so the block
leaves only candidate kexts reachable. -/
theorem isCandidate_of_reaches_ensureRelationships [Fintype κ] {s : Manager ι κ}
    (h : s.needsCalculateRelationships = true) {I : ι} {k : κ}
    (hk : Reaches s.ensureRelationships I k) : s.isCandidate k = true := by
  dsimp only [ensureRelationships] at hk
  by_cases hc : s.needsClearRelationships
  · rw [if_pos hc, if_pos (by simp [Internal.clearRelationships])] at hk
    simpa using ((calculateVersionRelationships_reaches _ I k).mp hk).2.1
  · rw [if_neg hc, if_pos h] at hk
    exact ((calculateVersionRelationships_reaches s I k).mp hk).2.1

variable [Fintype κ]

/-- `KXKextManagerLoadKextUsingOptions`: prepare without an `inauthenticKexts`
container, and load if the preparation succeeds; `doLoad` is passed on as the
load options. -/
def loadKextUsingOptions (prepareEnv : PrepareEnvironment ι κ) (env : LoadEnvironment)
    (s : Manager ι κ) (aKext : κ) (kextName : Option String) (symbolDir : Option String)
    (checkLoadedForDependencies doLoad getAddrsFromKernel : Bool) (numAddresses : Nat) :
    Manager ι κ × KXKextManagerError :=
  let p := prepareKextForLoading prepareEnv s aKext kextName checkLoadedForDependencies doLoad none
  if p.result ≠ .none then (p.manager, p.result)
  else Internal.loadKextUsingOptions env p.manager aKext kextName symbolDir
    (if doLoad then .load else .none) getAddrsFromKernel numAddresses

/-- **A failed load marks the kext and stales the structure.**  For every
state, kext and outcome of every step of `KXKextManagerLoadKextUsingOptions`:
a kext's `loadFailed` flag is raised exactly on the target, exactly when the
preparation succeeded and then one of the failing outcomes happened
(`LoadFails`: no path name, no dependency graph, a failing entry of it, failed
load addresses, a failed fork, a forked child that exits with a failed load's
result or is signalled or stopped, a failed link and load in the task), so a
rejection during preparation raises it nowhere.  Those outcomes are exactly
the ones after which the call returns a result other than none and "already
loaded"; and after them the structure needs recalculation at any disable depth
and the next rebuilding read reaches the target from no head. -/
theorem loadKextUsingOptions_loadFailed (prepareEnv : PrepareEnvironment ι κ)
    (env : LoadEnvironment) (s : Manager ι κ) (aKext : κ) (kextName symbolDir : Option String)
    (checkLoadedForDependencies doLoad getAddrsFromKernel : Bool) (numAddresses : Nat) (m : κ) :
    (((loadKextUsingOptions prepareEnv env s aKext kextName symbolDir checkLoadedForDependencies
          doLoad getAddrsFromKernel numAddresses).1.kexts m).loadFailed = true ↔
        (s.kexts m).loadFailed = true ∨
          m = aKext ∧
            (prepareKextForLoading prepareEnv s aKext kextName checkLoadedForDependencies doLoad
              none).result = .none ∧
            LoadFails env (prepareKextForLoading prepareEnv s aKext kextName checkLoadedForDependencies
              doLoad none).manager.performLoadsInTask kextName symbolDir
              (if doLoad then .load else .none) getAddrsFromKernel numAddresses) ∧
      ((prepareKextForLoading prepareEnv s aKext kextName checkLoadedForDependencies doLoad
          none).result = .none →
        (LoadFails env (prepareKextForLoading prepareEnv s aKext kextName checkLoadedForDependencies
            doLoad none).manager.performLoadsInTask kextName symbolDir
            (if doLoad then .load else .none) getAddrsFromKernel numAddresses ↔
          (loadKextUsingOptions prepareEnv env s aKext kextName symbolDir checkLoadedForDependencies
            doLoad getAddrsFromKernel numAddresses).2.FailsLoad) ∧
        (LoadFails env (prepareKextForLoading prepareEnv s aKext kextName checkLoadedForDependencies
            doLoad none).manager.performLoadsInTask kextName symbolDir
            (if doLoad then .load else .none) getAddrsFromKernel numAddresses →
          (loadKextUsingOptions prepareEnv env s aKext kextName symbolDir checkLoadedForDependencies
              doLoad getAddrsFromKernel numAddresses).1.needsCalculateRelationships = true ∧
            ∀ I, ¬ Reaches (loadKextUsingOptions prepareEnv env s aKext kextName symbolDir
              checkLoadedForDependencies doLoad getAddrsFromKernel numAddresses).1.ensureRelationships
              I aKext)) := by
  have hp : ∀ k, ((prepareKextForLoading prepareEnv s aKext kextName checkLoadedForDependencies
      doLoad none).manager.kexts k).loadFailed = (s.kexts k).loadFailed := fun k => by
    have := congrArg Kext.loadFailed (prepareKextForLoading_withoutComputed k prepareEnv s aKext
      kextName checkLoadedForDependencies doLoad none)
    exact this
  unfold loadKextUsingOptions
  by_cases hr : (prepareKextForLoading prepareEnv s aKext kextName checkLoadedForDependencies
    doLoad none).result = .none
  case neg =>
    -- a rejection during preparation
    simp only [if_pos hr, hp m]
    exact ⟨by simp [hr], fun h => absurd h hr⟩
  case pos =>
    simp only [hr, ne_eq, not_true_eq_false, if_false]
    have hl := fun k => Internal.loadKextUsingOptions_loadFailed_kexts env
      (prepareKextForLoading prepareEnv s aKext kextName checkLoadedForDependencies doLoad
        none).manager aKext kextName symbolDir (if doLoad then .load else .none)
      getAddrsFromKernel numAddresses k
    refine ⟨by rw [(hl m).1, hp m]; simp, fun _ => ⟨(hl aKext).2.1, fun hf => ?_⟩⟩
    have hcalc := (hl aKext).2.2 hf
    refine ⟨hcalc, fun I hI => ?_⟩
    -- the rebuild leaves out the kext now marked as failed
    have hcand := isCandidate_of_reaches_ensureRelationships hcalc hI
    have hflag := (hl aKext).1.mpr (.inr ⟨rfl, hf⟩)
    simp [isCandidate, hflag] at hcand

/-! ### The two entry points -/

/-- `KXKextManagerLoadKext`: the load with the defaults it passes, no kext name
and no symbol directory, the loaded dependencies checked, the kext loaded and
started, no addresses asked of the kernel. -/
def loadKext (prepareEnv : PrepareEnvironment ι κ) (env : LoadEnvironment) (s : Manager ι κ)
    (aKext : κ) : Manager ι κ × KXKextManagerError :=
  s.loadKextUsingOptions prepareEnv env aKext none none true true false 0

/-- `KXKextManagerLoadKextWithIdentifier`: the kext
`KXKextManagerGetKextWithIdentifier` returns, loaded with
`KXKextManagerLoadKext`; `kKXKextManagerErrorKextNotFound` when there is
none. -/
def loadKextWithIdentifier (prepareEnv : PrepareEnvironment ι κ) (env : LoadEnvironment)
    (s : Manager ι κ) (identifier : ι) : Manager ι κ × KXKextManagerError :=
  match s.getKextWithIdentifier identifier with
  | (s, none) => (s, .kextNotFound)
  | (s, some theKext) => s.loadKext prepareEnv env theKext

end Manager

end KextManager
