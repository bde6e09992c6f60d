/-
KextManager/Prepare.lean

`_KXKextManagerPrepareKextForLoading`: the eligibility checks, the rebuild of
a stale structure, the check of the kernel's table, a fresh resolution of the
target's dependencies, and the authentication walk over the dependency list
(`KXKextCopyAllDependencies` with the target appended), run with clearing
disabled.

The walk is the loop `authenticateDependencyList`, written as the code runs
it, with its `break`s and its `continue`.  It threads a `Preparation`: the
manager, the running result, the caller's `inauthenticKexts` container and,
as a ghost, the kexts passed to `KXKextManagerDisqualifyKext`.  Next to it
stands the walk as the spec describes it (`walkedKexts`, `walkEvents`,
`walkStep`): the modules up to the first that stops the walk, each contributing
its events to a join in the flat order of error kinds (`flatJoin`).  Main
result: `authenticateDependencyList_spec`, the two agree on every list, flag
mix and authentication outcome; in full-tests mode the result does not depend
on the order of the list (`authenticateDependencyList_perm`).

`KXKextManagerDisqualifyKext` hands the kext to its repository
(`_KXKextRepositoryDisqualifyKext`, not under src/), modelled from the spec:
the kext moves to the repository's bad kexts, and the manager is asked to
clear its relationships, which is what the disable count defers.
-/
import KextManager.Lookup

namespace KextManager

variable {ι κ : Type}

/-! ### Joining results -/

namespace KXKextManagerError

/-- How the walk folds an outcome into its running result (lines 2218-2224,
2233-2237): keep the outcome if the result is none or already that outcome,
else "multiple errors". -/
def join (result x : KXKextManagerError) : KXKextManagerError :=
  if result = .none ∨ result = x then x else .unspecified

/-- The join in the flat order `none` below every single kind, all of them
below `unspecified`. -/
def flatJoin (a b : KXKextManagerError) : KXKextManagerError :=
  if a = .none then b else if b = .none then a else if a = b then a else .unspecified

theorem join_eq_flatJoin {r x : KXKextManagerError} (hx : x ≠ .none) : r.join x = r.flatJoin x := by
  unfold join flatJoin
  by_cases h₁ : r = .none <;> by_cases h₂ : r = x <;> simp_all

theorem flatJoin_comm (a b : KXKextManagerError) : a.flatJoin b = b.flatJoin a := by
  unfold flatJoin
  by_cases h₁ : a = .none <;> by_cases h₂ : b = .none <;> by_cases h₃ : a = b <;> simp_all [eq_comm]

theorem flatJoin_none_right (a : KXKextManagerError) : a.flatJoin .none = a := by
  unfold flatJoin; split_ifs <;> simp_all

theorem flatJoin_assoc (a b c : KXKextManagerError) :
    (a.flatJoin b).flatJoin c = a.flatJoin (b.flatJoin c) := by
  by_cases hc : c = .none
  · rw [hc, flatJoin_none_right, flatJoin_none_right]
  unfold flatJoin
  by_cases ha : a = .none
  · simp [ha]
  by_cases hb : b = .none
  · simp [ha, hb]
  by_cases hab : a = b <;> by_cases hbc : b = c <;> simp_all

end KXKextManagerError

/-! ### Disqualifying a kext -/

namespace Repository

variable [DecidableEq κ]

/-- Modelled from the spec: the repository's part of
`_KXKextRepositoryDisqualifyKext` (spec §4.3 step 4, "moved to its
repository's bad-module set"). -/
def disqualifyKext (k : κ) (r : Repository κ) : Repository κ :=
  if k ∈ r.candidateKexts then
    { r with candidateKexts := r.candidateKexts.erase k, badKexts := r.badKexts ++ [k] }
  else r

/-- The repository stays the same object. -/
theorem handle_comp_disqualifyKext (k : κ) : handle ∘ disqualifyKext k = handle := by
  funext r; simp only [Function.comp, disqualifyKext]; split_ifs <;> rfl

theorem disqualifyKext_kexts_perm (k : κ) (r : Repository κ) :
    (r.disqualifyKext k).kexts.Perm r.kexts := by
  unfold disqualifyKext kexts
  split_ifs with h
  · rw [← List.append_assoc]
    exact (List.perm_append_singleton _ _).trans ((List.perm_cons_erase h).symm.append_right _)
  · exact List.Perm.refl _

end Repository

/-- The repository list after a disqualification: each kext still belongs to
one repository, once. -/
def Repositories.disqualifyKext [DecidableEq κ] (k : κ) (rs : Repositories κ) : Repositories κ :=
  ⟨rs.list.map (Repository.disqualifyKext k), by
    rw [List.flatMap_map]
    exact ((List.Perm.flatMap_left _ fun r _ => Repository.disqualifyKext_kexts_perm k r).nodup_iff).mpr
      rs.nodup, by rw [List.map_map, Repository.handle_comp_disqualifyKext]; exact rs.handles_nodup⟩

namespace Manager

variable [DecidableEq ι] [DecidableEq κ]

/-- `KXKextManagerDisqualifyKext`.  Modelled from the spec
(`_KXKextRepositoryDisqualifyKext`, spec §4.3 step 4 and §5): the kext's
repository moves it to its bad kexts, and asks the manager to clear its
relationships; each kext belongs to one repository, so mapping over all of
them edits the kext's own. -/
def disqualifyKext (s : Manager ι κ) (k : κ) : Manager ι κ :=
  { s with repositoryList := s.repositoryList.disqualifyKext k }.clearRelationships

section Disqualify

variable (s : Manager ι κ) (k : κ)

omit [DecidableEq ι] in
@[simp] theorem disqualifyKext_kexts : (s.disqualifyKext k).kexts = s.kexts :=
  clearRelationships_kexts _

omit [DecidableEq ι] in
@[simp] theorem disqualifyKext_performsFullTests :
    (s.disqualifyKext k).performsFullTests = s.performsFullTests := by
  unfold disqualifyKext clearRelationships; split_ifs <;>
    simp [Internal.clearRelationships, clearRepositoryRelationships_eq]

omit [DecidableEq ι] in
@[simp] theorem disqualifyKext_disableCount :
    (s.disqualifyKext k).clearRelationshipsDisableCount = s.clearRelationshipsDisableCount :=
  clearRelationships_disableCount _

omit [DecidableEq ι] in
theorem foldl_disqualifyKext_kexts (xs : List κ) :
    (xs.foldl disqualifyKext s).kexts = s.kexts := by
  induction xs generalizing s with
  | nil => rfl
  | cons x xs ih => rw [List.foldl_cons, ih, disqualifyKext_kexts]

omit [DecidableEq ι] in
theorem foldl_disqualifyKext_disableCount (xs : List κ) :
    (xs.foldl disqualifyKext s).clearRelationshipsDisableCount = s.clearRelationshipsDisableCount := by
  induction xs generalizing s with
  | nil => rfl
  | cons x xs ih => rw [List.foldl_cons, ih, disqualifyKext_disableCount]

end Disqualify

end Manager

/-! ### The authentication walk -/

/-- What the authentication walk carries: the manager, the running result,
the caller's `inauthenticKexts` container if one was passed, and (ghost) the
kexts passed to `KXKextManagerDisqualifyKext`, in order. -/
structure Preparation (ι κ : Type) where
  manager : Manager ι κ
  result : KXKextManagerError
  inauthenticKexts : Option (List κ)
  disqualified : List κ

variable [DecidableEq κ]

/-- The loop of `_KXKextManagerPrepareKextForLoading` over the dependency list
(lines 2189-2283); `authenticate` is the external `KXKextAuthenticate`. -/
def authenticateDependencyList (authenticate : κ → KXKextManagerError) :
    List κ → Preparation ι κ → Preparation ι κ
  | [], p => p
  | thisKext :: kextList, p =>
      let p := if (p.manager.kexts thisKext).otherVersionIsLoaded then
          { p with result := p.result.join .dependencyLoadedVersionDiffers } else p
      if (p.manager.kexts thisKext).otherVersionIsLoaded && !p.manager.performsFullTests then p
      else if !(p.manager.kexts thisKext).isAuthentic then
        let authResult := authenticate thisKext
        let p := if authResult ≠ .none then { p with result := p.result.join authResult } else p
        if authResult = .authentication then
          match p.inauthenticKexts with
          | some c =>
              authenticateDependencyList authenticate kextList
                { p with inauthenticKexts := some (c ++ [thisKext]) }
          | none =>
              let p := { p with manager := p.manager.disqualifyKext thisKext,
                                disqualified := p.disqualified ++ [thisKext] }
              if !p.manager.performsFullTests then p
              else authenticateDependencyList authenticate kextList p
        else authenticateDependencyList authenticate kextList p
      else authenticateDependencyList authenticate kextList p

/-! ### The walk as the spec describes it -/

section Spec

variable (K : κ → Kext ι) (authenticate : κ → KXKextManagerError) (full tolerant : Bool)

/-- A module that stops the walk outside full-tests mode: another version of it
is loaded, or its authentication fails with the Authentication kind and no
container absorbs it. -/
def stopsWalk (m : κ) : Bool :=
  (K m).otherVersionIsLoaded ||
    (!(K m).isAuthentic && authenticate m == .authentication && !tolerant)

/-- The modules the walk processes, in order: all of them in full-tests mode,
else those up to and including the first that stops it. -/
def walkedKexts : List κ → List κ
  | [] => []
  | m :: ms => m :: if !full && stopsWalk K authenticate tolerant m then [] else walkedKexts ms

/-- A processed module is authenticated unless it is marked authentic or it
stopped the walk, before authentication, for another version loaded. -/
def authenticates (m : κ) : Bool :=
  !(K m).isAuthentic && !((K m).otherVersionIsLoaded && !full)

/-- The events of a processed module: another version loaded, and the outcome
of a failed authentication. -/
def walkEvents (m : κ) : List KXKextManagerError :=
  (if (K m).otherVersionIsLoaded then [.dependencyLoadedVersionDiffers] else []) ++
    (if authenticates K full m && authenticate m != .none then [authenticate m] else [])

/-- A processed module whose authentication fails with the Authentication kind. -/
def inauthentic (m : κ) : Bool :=
  authenticates K full m && authenticate m == .authentication

end Spec

/-- One processed module, as the spec describes it: its events join the
result; if it is inauthentic, it is collected into the container when there is
one, else disqualified. -/
def walkStep (authenticate : κ → KXKextManagerError) (p : Preparation ι κ) (m : κ) :
    Preparation ι κ :=
  let K := p.manager.kexts
  let full := p.manager.performsFullTests
  let p := { p with
    result := (walkEvents K authenticate full m).foldl KXKextManagerError.flatJoin p.result }
  if inauthentic K authenticate full m then
    match p.inauthenticKexts with
    | some c => { p with inauthenticKexts := some (c ++ [m]) }
    | none => { p with manager := p.manager.disqualifyKext m, disqualified := p.disqualified ++ [m] }
  else p

@[simp] theorem walkStep_kexts (authenticate : κ → KXKextManagerError) (p : Preparation ι κ)
    (m : κ) : (walkStep authenticate p m).manager.kexts = p.manager.kexts := by
  simp only [walkStep]; split_ifs
  · split <;> simp
  · rfl

@[simp] theorem walkStep_performsFullTests (authenticate : κ → KXKextManagerError)
    (p : Preparation ι κ) (m : κ) :
    (walkStep authenticate p m).manager.performsFullTests = p.manager.performsFullTests := by
  simp only [walkStep]; split_ifs
  · split <;> simp
  · rfl

@[simp] theorem walkStep_inauthenticKexts_isSome (authenticate : κ → KXKextManagerError)
    (p : Preparation ι κ) (m : κ) :
    (walkStep authenticate p m).inauthenticKexts.isSome = p.inauthenticKexts.isSome := by
  simp only [walkStep]; split_ifs
  · split <;> simp_all
  · rfl

/-- One step of the loop is the spec's step, followed by the rest of the list
unless the module stops the walk. -/
theorem authenticateDependencyList_cons (authenticate : κ → KXKextManagerError) (m : κ)
    (ms : List κ) (p : Preparation ι κ) :
    authenticateDependencyList authenticate (m :: ms) p =
      if !p.manager.performsFullTests &&
          stopsWalk p.manager.kexts authenticate p.inauthenticKexts.isSome m then
        walkStep authenticate p m
      else authenticateDependencyList authenticate ms (walkStep authenticate p m) := by
  obtain ⟨s, r, c, d⟩ := p
  simp only [authenticateDependencyList, walkStep, stopsWalk, inauthentic, walkEvents,
    authenticates]
  by_cases ho : (s.kexts m).otherVersionIsLoaded = true <;>
    by_cases hf : s.performsFullTests = true <;> by_cases ha : (s.kexts m).isAuthentic = true <;>
    by_cases hn : authenticate m = .none <;> by_cases hu : authenticate m = .authentication <;>
    cases c <;>
    simp [ho, hf, ha, hn, hu, KXKextManagerError.join_eq_flatJoin, KXKextManagerError.flatJoin]

/-- The spec's walk: the processed modules, each taken by `walkStep`. -/
def specWalk (authenticate : κ → KXKextManagerError) (kextList : List κ) (p : Preparation ι κ) :
    Preparation ι κ :=
  (walkedKexts p.manager.kexts authenticate p.manager.performsFullTests p.inauthenticKexts.isSome
    kextList).foldl (walkStep authenticate) p

/-- **The loop is the spec's walk.** -/
theorem authenticateDependencyList_eq_specWalk (authenticate : κ → KXKextManagerError) :
    ∀ (kextList : List κ) (p : Preparation ι κ),
      authenticateDependencyList authenticate kextList p = specWalk authenticate kextList p
  | [], _ => rfl
  | m :: ms, p => by
      rw [authenticateDependencyList_cons, specWalk, walkedKexts]
      split_ifs with h
      · rfl
      · rw [authenticateDependencyList_eq_specWalk authenticate ms, specWalk, List.foldl_cons,
          walkStep_kexts, walkStep_performsFullTests, walkStep_inauthenticKexts_isSome]

section Closed

variable (authenticate : κ → KXKextManagerError) (p : Preparation ι κ) (m : κ)

theorem walkStep_result :
    (walkStep authenticate p m).result = (walkEvents p.manager.kexts authenticate
      p.manager.performsFullTests m).foldl KXKextManagerError.flatJoin p.result := by
  simp only [walkStep]; split_ifs
  · split <;> rfl
  · rfl

theorem walkStep_inauthenticKexts :
    (walkStep authenticate p m).inauthenticKexts =
      if inauthentic p.manager.kexts authenticate p.manager.performsFullTests m then
        p.inauthenticKexts.map (· ++ [m]) else p.inauthenticKexts := by
  simp only [walkStep]; split_ifs
  · split <;> simp_all
  · rfl

theorem walkStep_disqualified :
    (walkStep authenticate p m).disqualified =
      p.disqualified ++ if inauthentic p.manager.kexts authenticate p.manager.performsFullTests m &&
        p.inauthenticKexts.isNone then [m] else [] := by
  obtain ⟨s, r, c, d⟩ := p
  cases c <;> by_cases h : inauthentic s.kexts authenticate s.performsFullTests m <;>
    simp [walkStep, h]

theorem walkStep_manager :
    (walkStep authenticate p m).manager =
      (if inauthentic p.manager.kexts authenticate p.manager.performsFullTests m &&
        p.inauthenticKexts.isNone then [m] else []).foldl Manager.disqualifyKext p.manager := by
  obtain ⟨s, r, c, d⟩ := p
  cases c <;> by_cases h : inauthentic s.kexts authenticate s.performsFullTests m <;>
    simp [walkStep, h]

/-- The modules the spec's walk disqualifies: the inauthentic processed ones,
unless a container absorbs them. -/
def badKexts (K : κ → Kext ι) (full tolerant : Bool) (W : List κ) : List κ :=
  if tolerant then [] else W.filter (inauthentic K authenticate full)

theorem foldl_walkStep (W : List κ) : ∀ p : Preparation ι κ,
    (W.foldl (walkStep authenticate) p).result =
        (W.flatMap (walkEvents p.manager.kexts authenticate p.manager.performsFullTests)).foldl
          KXKextManagerError.flatJoin p.result ∧
      (W.foldl (walkStep authenticate) p).inauthenticKexts = p.inauthenticKexts.map
        (· ++ W.filter (inauthentic p.manager.kexts authenticate p.manager.performsFullTests)) ∧
      (W.foldl (walkStep authenticate) p).disqualified = p.disqualified ++
        badKexts authenticate p.manager.kexts p.manager.performsFullTests p.inauthenticKexts.isSome W ∧
      (W.foldl (walkStep authenticate) p).manager =
        (badKexts authenticate p.manager.kexts p.manager.performsFullTests p.inauthenticKexts.isSome
          W).foldl Manager.disqualifyKext p.manager := by
  induction W with
  | nil => intro p; simp [badKexts]
  | cons w W ih =>
      intro p
      obtain ⟨h₁, h₂, h₃, h₄⟩ := ih (walkStep authenticate p w)
      simp only [walkStep_kexts, walkStep_performsFullTests, walkStep_inauthenticKexts_isSome]
        at h₁ h₂ h₃ h₄
      rw [List.foldl_cons]
      refine ⟨by rw [h₁, walkStep_result, List.flatMap_cons, List.foldl_append], ?_, ?_, ?_⟩
      · rw [h₂, walkStep_inauthenticKexts, List.filter_cons]
        split_ifs <;> cases p.inauthenticKexts <;> simp
      · rw [h₃, walkStep_disqualified, badKexts, badKexts, List.filter_cons]
        cases p.inauthenticKexts <;> by_cases h : inauthentic p.manager.kexts authenticate
          p.manager.performsFullTests w <;> simp [h]
      · rw [h₄, walkStep_manager, badKexts, badKexts, List.filter_cons]
        cases p.inauthenticKexts <;> by_cases h : inauthentic p.manager.kexts authenticate
          p.manager.performsFullTests w <;> simp [h]

end Closed

/-- The walk's result is the flat join of the events of the spec's walk. -/
theorem authenticateDependencyList_result (authenticate : κ → KXKextManagerError)
    (kextList : List κ) (s : Manager ι κ) (inauthenticKexts : Option (List κ)) :
    (authenticateDependencyList authenticate kextList ⟨s, .none, inauthenticKexts, []⟩).result =
      ((walkedKexts s.kexts authenticate s.performsFullTests inauthenticKexts.isSome
        kextList).flatMap (walkEvents s.kexts authenticate s.performsFullTests)).foldl
        KXKextManagerError.flatJoin .none := by
  rw [authenticateDependencyList_eq_specWalk, specWalk]
  exact (foldl_walkStep authenticate _ _).1

/-- **The authentication walk.**  For every dependency list, every mix of the
kexts' `otherVersionIsLoaded` and `isAuthentic` flags, every outcome of
`KXKextAuthenticate`, either full-tests setting and with or without an
`inauthenticKexts` container, the walk of `_KXKextManagerPrepareKextForLoading`
processes the modules of `walkedKexts` (all of them in full-tests mode, else
those up to and including the first with another version loaded or the first
inauthentic one no container absorbs) in order; its result is the flat join of
their events; the kexts it passes to `KXKextManagerDisqualifyKext` are the
processed inauthentic ones when there is no container, none otherwise, and
those are appended to the container when there is one. -/
theorem authenticateDependencyList_spec (authenticate : κ → KXKextManagerError)
    (kextList : List κ) (s : Manager ι κ) (inauthenticKexts : Option (List κ)) :
    (authenticateDependencyList authenticate kextList ⟨s, .none, inauthenticKexts, []⟩).result =
        ((walkedKexts s.kexts authenticate s.performsFullTests inauthenticKexts.isSome
          kextList).flatMap (walkEvents s.kexts authenticate s.performsFullTests)).foldl
          KXKextManagerError.flatJoin .none ∧
      (authenticateDependencyList authenticate kextList ⟨s, .none, inauthenticKexts, []⟩).disqualified =
        badKexts authenticate s.kexts s.performsFullTests inauthenticKexts.isSome
          (walkedKexts s.kexts authenticate s.performsFullTests inauthenticKexts.isSome kextList) ∧
      (authenticateDependencyList authenticate kextList
          ⟨s, .none, inauthenticKexts, []⟩).inauthenticKexts =
        inauthenticKexts.map (· ++ (walkedKexts s.kexts authenticate s.performsFullTests
          inauthenticKexts.isSome kextList).filter (inauthentic s.kexts authenticate s.performsFullTests)) ∧
      (authenticateDependencyList authenticate kextList ⟨s, .none, inauthenticKexts, []⟩).manager =
        (authenticateDependencyList authenticate kextList
          ⟨s, .none, inauthenticKexts, []⟩).disqualified.foldl Manager.disqualifyKext s := by
  refine ⟨authenticateDependencyList_result authenticate kextList s inauthenticKexts, ?_⟩
  rw [authenticateDependencyList_eq_specWalk, specWalk]
  obtain ⟨-, h₂, h₃, h₄⟩ := foldl_walkStep authenticate
    (walkedKexts s.kexts authenticate s.performsFullTests inauthenticKexts.isSome kextList)
    ⟨s, .none, inauthenticKexts, []⟩
  exact ⟨by simpa using h₃, h₂, by rw [h₄, h₃, List.nil_append]⟩

omit [DecidableEq κ] in
theorem walkedKexts_of_full (K : κ → Kext ι) (authenticate : κ → KXKextManagerError)
    (tolerant : Bool) : ∀ kextList : List κ, walkedKexts K authenticate true tolerant kextList = kextList
  | [] => rfl
  | m :: ms => by rw [walkedKexts, Bool.not_true, Bool.false_and, if_neg (by simp),
      walkedKexts_of_full K authenticate tolerant ms]

/-- In full-tests mode the walk's result does not depend on the order of the
dependency list. -/
theorem authenticateDependencyList_perm (authenticate : κ → KXKextManagerError)
    {kextList kextList' : List κ} (hp : kextList.Perm kextList') (s : Manager ι κ)
    (hfull : s.performsFullTests = true) (inauthenticKexts : Option (List κ)) :
    (authenticateDependencyList authenticate kextList ⟨s, .none, inauthenticKexts, []⟩).result =
      (authenticateDependencyList authenticate kextList' ⟨s, .none, inauthenticKexts, []⟩).result := by
  rw [authenticateDependencyList_result, authenticateDependencyList_result, hfull,
    walkedKexts_of_full, walkedKexts_of_full]
  refine (hp.flatMap_right _).foldl_eq' (fun x _ y _ z => ?_) _
  rw [KXKextManagerError.flatJoin_assoc, KXKextManagerError.flatJoin_comm x,
    ← KXKextManagerError.flatJoin_assoc]

/-- In full-tests mode, the walks of `[0, 1]` and `[1, 0]` over the kexts of
`sameVersionPair` made inauthentic, which fail to authenticate in two ways,
give one result. -/
theorem authenticateDependencyList_perm_pair :
    ∃ s : Manager Nat (Fin 2),
      s = { sameVersionPair with
        kexts := fun k => { sameVersionPair.kexts k with isAuthentic := false }
        performsFullTests := true } ∧
      ([0, 1] : List (Fin 2)).Perm [1, 0] ∧ s.performsFullTests = true ∧
      (authenticateDependencyList (fun k => if k = 0 then .authentication else .validation) [0, 1]
          ⟨s, .none, none, []⟩).result =
        (authenticateDependencyList (fun k => if k = 0 then .authentication else .validation) [1, 0]
          ⟨s, .none, none, []⟩).result :=
  ⟨_, rfl, List.Perm.swap 1 0 [], rfl,
    authenticateDependencyList_perm _ (List.Perm.swap 1 0 []) _ rfl none⟩

/-- What the walk leaves of the manager: the disqualifications of the spec's
walk, made in order. -/
theorem authenticateDependencyList_manager (authenticate : κ → KXKextManagerError)
    (kextList : List κ) (p : Preparation ι κ) :
    (authenticateDependencyList authenticate kextList p).manager =
      (badKexts authenticate p.manager.kexts p.manager.performsFullTests p.inauthenticKexts.isSome
        (walkedKexts p.manager.kexts authenticate p.manager.performsFullTests
          p.inauthenticKexts.isSome kextList)).foldl Manager.disqualifyKext p.manager := by
  rw [authenticateDependencyList_eq_specWalk, specWalk]
  exact (foldl_walkStep authenticate _ p).2.2.2

/-! ### The preparation -/

/-- A kext record with what the manager computes of it forgotten: resolution,
the two load flags and the start address. -/
def Kext.withoutComputed (r : Kext ι) : Kext ι :=
  { r with
    hasAllDependencies := false, isLoaded := false, otherVersionIsLoaded := false, startAddress := 0 }

/-- The external calls of `_KXKextManagerPrepareKextForLoading`, as they answer
in one run. -/
structure PrepareEnvironment (ι κ : Type) where
  /-- `_KXKextCopyCanonicalPathnameAsCString` succeeds. -/
  canonicalPathname : Bool
  /-- `kmod_get_info`: the kernel's table, `none` when the call fails. -/
  kmodInfo : Option (List (KmodInfo ι))
  /-- `KXKextResolveDependencies`. -/
  resolve : κ → KXKextManagerError
  /-- `KXKextCopyAllDependencies`: `none` when it returns NULL. -/
  copyAllDependencies : κ → Option (List κ)
  /-- `CFArrayCreateMutable` succeeds. -/
  arrayCreated : Bool
  /-- `KXKextAuthenticate`. -/
  authenticate : κ → KXKextManagerError

namespace Manager

variable [DecidableEq ι] [Fintype κ]

/-- The rebuild block of `_KXKextManagerPrepareKextForLoading` (lines
2116-2124): as the lookups do, but a pending clear also clears the dependency
relationships. -/
def ensureRelationshipsForLoading (s : Manager ι κ) : Manager ι κ :=
  let s := if s.needsClearRelationships then
      Internal.clearDependencyRelationships (Internal.clearRelationships s) else s
  if s.needsCalculateRelationships then s.calculateVersionRelationships else s

/-- `_KXKextManagerPrepareKextForLoading` from the fresh dependency resolution
on (lines 2163-2285): on failure the target is listed as missing dependencies;
on success the dependency list, with the target appended, is walked with
clearing disabled. -/
def resolveAndAuthenticate (env : PrepareEnvironment ι κ) (aKext : κ)
    (inauthenticKexts : Option (List κ)) (s : Manager ι κ) : Preparation ι κ :=
  let s := Internal.clearDependencyRelationships s
  let result := env.resolve aKext
  let s := s.resolveDependencies env.resolve aKext
  if result ≠ .none then ⟨s.appendMissing aKext, result, inauthenticKexts, []⟩
  else
    let s := s.disableClearRelationships
    let p : Preparation ι κ := match env.copyAllDependencies aKext with
      | some kextList =>
          authenticateDependencyList env.authenticate (kextList ++ [aKext])
            ⟨s, .none, inauthenticKexts, []⟩
      | none =>
          if env.arrayCreated then
            authenticateDependencyList env.authenticate [aKext] ⟨s, .none, inauthenticKexts, []⟩
          else ⟨s, .noMemory, inauthenticKexts, []⟩
    { p with manager := p.manager.enableClearRelationships }

/-- `_KXKextManagerPrepareKextForLoading`: the eligibility checks, the rebuild
of a stale structure, the optional check of the kernel's table, then
`resolveAndAuthenticate`. -/
def prepareKextForLoading (env : PrepareEnvironment ι κ) (s : Manager ι κ) (aKext : κ)
    (kextName : Option String) (checkLoadedForDependencies doLoad : Bool)
    (inauthenticKexts : Option (List κ)) : Preparation ι κ :=
  if kextName.isNone && !env.canonicalPathname then ⟨s, .noMemory, inauthenticKexts, []⟩
  else if !(s.kexts aKext).isValid then ⟨s, .validation, inauthenticKexts, []⟩
  else if s.safeBoot && !(s.kexts aKext).isEligibleDuringSafeBoot then
    ⟨s, .bootLevel, inauthenticKexts, []⟩
  else if !(s.kexts aKext).isEnabled then ⟨s, .disabled, inauthenticKexts, []⟩
  else
    let s := s.ensureRelationshipsForLoading
    if checkLoadedForDependencies then
      let r := s.checkForLoadedKexts env.kmodInfo
      if r.2 ≠ .none then ⟨r.1, r.2, inauthenticKexts, []⟩
      else if doLoad && (r.1.kexts aKext).isLoaded then ⟨r.1, .alreadyLoaded, inauthenticKexts, []⟩
      else if doLoad && (r.1.kexts aKext).otherVersionIsLoaded then
        ⟨r.1, .loadedVersionDiffers, inauthenticKexts, []⟩
      else resolveAndAuthenticate env aKext inauthenticKexts r.1
    else resolveAndAuthenticate env aKext inauthenticKexts s

/-! ### What a preparation does to the manager -/

omit [DecidableEq ι] [Fintype κ] in
/-- The ways `resolveAndAuthenticate` can end: the target's resolution fails
and it is listed, or the walk's disqualifications run between a disable and
an enable. -/
theorem resolveAndAuthenticate_cases (env : PrepareEnvironment ι κ) (aKext : κ)
    (inauthenticKexts : Option (List κ)) (s : Manager ι κ) :
    (env.resolve aKext ≠ .none ∧ (resolveAndAuthenticate env aKext inauthenticKexts s).manager =
        ((Internal.clearDependencyRelationships s).resolveDependencies env.resolve
          aKext).appendMissing aKext) ∨
      (env.resolve aKext = .none ∧ ∃ bad : List κ,
        (resolveAndAuthenticate env aKext inauthenticKexts s).manager =
          (bad.foldl disqualifyKext ((Internal.clearDependencyRelationships s).resolveDependencies
            env.resolve aKext).disableClearRelationships).enableClearRelationships) := by
  dsimp only [resolveAndAuthenticate]
  by_cases hr : env.resolve aKext = .none
  · refine .inr ⟨hr, ?_⟩
    rw [if_neg (not_not.mpr hr)]
    split
    · exact ⟨_, by rw [authenticateDependencyList_manager]⟩
    · split_ifs
      · exact ⟨_, by rw [authenticateDependencyList_manager]⟩
      · exact ⟨[], rfl⟩
  · exact .inl ⟨hr, by rw [if_pos hr]⟩

/-- Whether `_KXKextManagerPrepareKextForLoading` passes its first checks (a
path name, a valid, eligible and enabled kext) and reaches the rebuild
block. -/
def preparationReachesRebuild (env : PrepareEnvironment ι κ) (s : Manager ι κ) (aKext : κ)
    (kextName : Option String) : Bool :=
  !(kextName.isNone && !env.canonicalPathname) && (s.kexts aKext).isValid &&
    !(s.safeBoot && !(s.kexts aKext).isEligibleDuringSafeBoot) && (s.kexts aKext).isEnabled

/-- A preparation rejected before the rebuild block fails and leaves the
manager as it was. -/
theorem prepareKextForLoading_of_not_reachesRebuild (env : PrepareEnvironment ι κ)
    {s : Manager ι κ} {aKext : κ} {kextName : Option String}
    (h : s.preparationReachesRebuild env aKext kextName = false)
    (checkLoadedForDependencies doLoad : Bool) (inauthenticKexts : Option (List κ)) :
    (prepareKextForLoading env s aKext kextName checkLoadedForDependencies doLoad
        inauthenticKexts).manager = s ∧
      (prepareKextForLoading env s aKext kextName checkLoadedForDependencies doLoad
        inauthenticKexts).result ≠ .none := by
  dsimp only [prepareKextForLoading]
  by_cases h₁ : (kextName.isNone && !env.canonicalPathname) = true
  · rw [if_pos h₁]; exact ⟨rfl, nofun⟩
  by_cases h₂ : (!(s.kexts aKext).isValid) = true
  · rw [if_neg h₁, if_pos h₂]; exact ⟨rfl, nofun⟩
  by_cases h₃ : (s.safeBoot && !(s.kexts aKext).isEligibleDuringSafeBoot) = true
  · rw [if_neg h₁, if_neg h₂, if_pos h₃]; exact ⟨rfl, nofun⟩
  by_cases h₄ : (!(s.kexts aKext).isEnabled) = true
  · rw [if_neg h₁, if_neg h₂, if_neg h₃, if_pos h₄]; exact ⟨rfl, nofun⟩
  -- every check passed, so the rebuild block is reached
  exact absurd h (by simp_all [preparationReachesRebuild])

/-- The ways `_KXKextManagerPrepareKextForLoading` can end: rejected before the
rebuild, or after it and the optional check of the kernel's table, with or
without going on to `resolveAndAuthenticate`. -/
theorem prepareKextForLoading_cases (env : PrepareEnvironment ι κ) (s : Manager ι κ) (aKext : κ)
    (kextName : Option String) (checkLoadedForDependencies doLoad : Bool)
    (inauthenticKexts : Option (List κ)) :
    (prepareKextForLoading env s aKext kextName checkLoadedForDependencies doLoad
        inauthenticKexts).manager = s ∨
      ∃ t, (t = s.ensureRelationshipsForLoading ∨
          t = (s.ensureRelationshipsForLoading.checkForLoadedKexts env.kmodInfo).1) ∧
        ((prepareKextForLoading env s aKext kextName checkLoadedForDependencies doLoad
            inauthenticKexts).manager = t ∨
          (prepareKextForLoading env s aKext kextName checkLoadedForDependencies doLoad
            inauthenticKexts).manager = (resolveAndAuthenticate env aKext inauthenticKexts t).manager) := by
  dsimp only [prepareKextForLoading]
  by_cases h₁ : (kextName.isNone && !env.canonicalPathname) = true
  · rw [if_pos h₁]; exact .inl rfl
  rw [if_neg h₁]
  by_cases h₂ : (!(s.kexts aKext).isValid) = true
  · rw [if_pos h₂]; exact .inl rfl
  rw [if_neg h₂]
  by_cases h₃ : (s.safeBoot && !(s.kexts aKext).isEligibleDuringSafeBoot) = true
  · rw [if_pos h₃]; exact .inl rfl
  rw [if_neg h₃]
  by_cases h₄ : (!(s.kexts aKext).isEnabled) = true
  · rw [if_pos h₄]; exact .inl rfl
  rw [if_neg h₄]
  cases checkLoadedForDependencies with
  | false => exact .inr ⟨_, .inl rfl, .inr rfl⟩
  | true =>
      refine .inr ⟨_, .inr rfl, ?_⟩
      rw [if_pos rfl]
      by_cases h₅ : (s.ensureRelationshipsForLoading.checkForLoadedKexts env.kmodInfo).2 ≠ .none
      · rw [if_pos h₅]; exact .inl rfl
      rw [if_neg h₅]
      by_cases h₆ : (doLoad &&
          ((s.ensureRelationshipsForLoading.checkForLoadedKexts env.kmodInfo).1.kexts aKext).isLoaded) = true
      · rw [if_pos h₆]; exact .inl rfl
      rw [if_neg h₆]
      by_cases h₇ : (doLoad && ((s.ensureRelationshipsForLoading.checkForLoadedKexts
          env.kmodInfo).1.kexts aKext).otherVersionIsLoaded) = true
      · rw [if_pos h₇]; exact .inl rfl
      rw [if_neg h₇]; exact .inr rfl

/-! ### What a preparation keeps -/

section Records

variable (k : κ)

omit [DecidableEq ι] [Fintype κ] in
theorem clearDependencyRelationships_withoutComputed (s : Manager ι κ) :
    ((Internal.clearDependencyRelationships s).kexts k).withoutComputed =
      (s.kexts k).withoutComputed := by
  rw [Internal.clearDependencyRelationships_kexts]; split_ifs <;> rfl

theorem calculateVersionRelationships_withoutComputed (s : Manager ι κ) :
    (s.calculateVersionRelationships.kexts k).withoutComputed = (s.kexts k).withoutComputed := by
  rw [calculateVersionRelationships_kexts, clearDependencyRelationships_withoutComputed,
    Internal.clearRelationships_kexts]

theorem ensureRelationships_withoutComputed (s : Manager ι κ) :
    (s.ensureRelationships.kexts k).withoutComputed = (s.kexts k).withoutComputed := by
  have := congrArg Kext.withoutComputed (ensureRelationships_kexts s k); exact this

theorem ensureRelationshipsForLoading_withoutComputed (s : Manager ι κ) :
    (s.ensureRelationshipsForLoading.kexts k).withoutComputed = (s.kexts k).withoutComputed := by
  dsimp only [ensureRelationshipsForLoading]
  split_ifs <;>
    simp only [calculateVersionRelationships_withoutComputed,
      clearDependencyRelationships_withoutComputed, Internal.clearRelationships_kexts]

theorem checkForLoadedKexts_withoutComputed (kmodInfo : Option (List (KmodInfo ι)))
    (s : Manager ι κ) :
    ((s.checkForLoadedKexts kmodInfo).1.kexts k).withoutComputed = (s.kexts k).withoutComputed := by
  refine checkForLoadedKexts_invariant (fun s => (s.kexts k).withoutComputed)
    (ensureRelationships_withoutComputed k) (fun kmod s k' => ?_) (fun s => ?_) kmodInfo s
  · simp only [markLoadedKext, modifyKext_kexts]
    split_ifs with h
    · subst h; unfold KmodInfo.mark; split_ifs <;> rfl
    · rfl
  · simp only [markKextsNotLoaded_kexts]; split_ifs <;> rfl

omit [DecidableEq ι] [Fintype κ] in
theorem resolveAndAuthenticate_withoutComputed (env : PrepareEnvironment ι κ) (aKext : κ)
    (inauthenticKexts : Option (List κ)) (s : Manager ι κ) :
    ((resolveAndAuthenticate env aKext inauthenticKexts s).manager.kexts k).withoutComputed =
      (s.kexts k).withoutComputed := by
  have hres : (((Internal.clearDependencyRelationships s).resolveDependencies env.resolve
      aKext).kexts k).withoutComputed = (s.kexts k).withoutComputed := by
    rw [resolveDependencies, modifyKext_kexts, ← clearDependencyRelationships_withoutComputed k s]
    split_ifs with h
    · subst h; rfl
    · rfl
  rcases resolveAndAuthenticate_cases env aKext inauthenticKexts s with ⟨-, h⟩ | ⟨-, bad, h⟩ <;>
    rw [h]
  · exact hres
  · rw [enableClearRelationships_kexts, foldl_disqualifyKext_kexts]; exact hres

/-- **A preparation keeps the kexts' records**, but for what the manager
computes of them: resolution, the load flags and the start address. -/
theorem prepareKextForLoading_withoutComputed (env : PrepareEnvironment ι κ) (s : Manager ι κ)
    (aKext : κ) (kextName : Option String) (checkLoadedForDependencies doLoad : Bool)
    (inauthenticKexts : Option (List κ)) :
    ((prepareKextForLoading env s aKext kextName checkLoadedForDependencies doLoad
        inauthenticKexts).manager.kexts k).withoutComputed = (s.kexts k).withoutComputed := by
  rcases prepareKextForLoading_cases env s aKext kextName checkLoadedForDependencies doLoad
    inauthenticKexts with h | ⟨t, ht, h⟩
  · rw [h]
  have htk : (t.kexts k).withoutComputed = (s.kexts k).withoutComputed := by
    rcases ht with rfl | rfl
    · exact ensureRelationshipsForLoading_withoutComputed k s
    · rw [checkForLoadedKexts_withoutComputed, ensureRelationshipsForLoading_withoutComputed]
  rcases h with h | h <;> rw [h]
  · exact htk
  · rw [resolveAndAuthenticate_withoutComputed, htk]

end Records

/-! ### The preparation balances the disable count -/

@[simp] theorem ensureRelationshipsForLoading_disableCount (s : Manager ι κ) :
    s.ensureRelationshipsForLoading.clearRelationshipsDisableCount =
      s.clearRelationshipsDisableCount := by
  dsimp only [ensureRelationshipsForLoading]; split_ifs <;> simp

omit [DecidableEq ι] [Fintype κ] in
theorem resolveAndAuthenticate_disableCount (env : PrepareEnvironment ι κ) (aKext : κ)
    (inauthenticKexts : Option (List κ)) {s : Manager ι κ}
    (h : 0 ≤ s.clearRelationshipsDisableCount.toInt ∧ s.clearRelationshipsDisableCount.toInt < 2 ^ 31 - 1) :
    (resolveAndAuthenticate env aKext inauthenticKexts s).manager.clearRelationshipsDisableCount =
      s.clearRelationshipsDisableCount := by
  rcases resolveAndAuthenticate_cases env aKext inauthenticKexts s with ⟨-, h'⟩ | ⟨-, bad, h'⟩ <;>
    rw [h']
  · simp [resolveDependencies, modifyKext, appendMissing]
  · rw [enableClearRelationships_disableCount, foldl_disqualifyKext_disableCount,
      disableClearRelationships_disableCount]
    simp only [resolveDependencies, modifyKext, Internal.clearDependencyRelationships_disableCount]
    rw [if_pos (by rw [toInt_add_one (by omega)]; omega), BitVec.add_sub_cancel]

/-- **A preparation returns with the disable count it was entered with**, on
every path, from any count that is not negative and leaves room for the
preparation's own disable below `INT_MAX`. -/
theorem prepareKextForLoading_disableCount (env : PrepareEnvironment ι κ) {s : Manager ι κ}
    (aKext : κ) (kextName : Option String) (checkLoadedForDependencies doLoad : Bool)
    (inauthenticKexts : Option (List κ))
    (h : 0 ≤ s.clearRelationshipsDisableCount.toInt ∧ s.clearRelationshipsDisableCount.toInt < 2 ^ 31 - 1) :
    (prepareKextForLoading env s aKext kextName checkLoadedForDependencies doLoad
        inauthenticKexts).manager.clearRelationshipsDisableCount =
      s.clearRelationshipsDisableCount := by
  rcases prepareKextForLoading_cases env s aKext kextName checkLoadedForDependencies doLoad
    inauthenticKexts with h' | ⟨t, ht, h'⟩
  · rw [h']
  have htc : t.clearRelationshipsDisableCount = s.clearRelationshipsDisableCount := by
    rcases ht with rfl | rfl <;> simp
  rcases h' with h' | h' <;> rw [h']
  · exact htc
  · rw [resolveAndAuthenticate_disableCount _ _ _ (htc ▸ h), htc]

end Manager

end KextManager
