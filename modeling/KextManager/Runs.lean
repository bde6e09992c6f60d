/-
KextManager/Runs.lean

The manager's calls together: those of a session (`Session.lean`) and those
that change the repository list (`Registry.lean`).

Design.  Whatever path `KXKextManagerAddRepositoryDirectory` takes, the
manager it leaves is the one it found with repositories appended, each followed
by a clear request (`Appended`).  A clear request keeps the session invariant
whether the gate defers it or not, and an append only adds kexts to the
repositories, so an add keeps the invariant.  A removal made outside a disabled
window tears the structure down first.  A removal inside one does not: the
links still reach the removed repository's kexts, which belong to no repository
any more, until the next rebuild (`removeRepository_keeps_reaches`).

The ghosts of a session (the safe-boot mode of the latest build and the kexts
spliced out since) are carried across the registry calls, which reset them
when they tear the structure down (`ManagerCall.ghosts`).

Main result: in every state of every run from a new manager whose removals are
made outside windows, a kext reached from the head of an identifier carries
it, belongs to the repositories and is no newer than the head; unless the
structure is stale, the kexts reached are the builder's candidates under the
ghost mode less the ghost spliced kexts; and the missing list holds, after its
first entry, kexts reached from no head, each once (`ManagerCall.run_reaches`).
-/
import KextManager.Registry

namespace KextManager

variable {ι κ υ δ : Type} [DecidableEq ι] [DecidableEq κ]

/-! ### A new manager -/

/-- `KXKextManagerInit` on a manager `KXKextManagerCreate` made, which zeroes
every field: an empty repository list, dictionary and missing list, the gate
closed with no clear pending, the structure to be built, full tests off, and
the two flags as given.  The kext records are those of the kext objects, none
of which a repository holds yet, and no kext has links.  None, with
`kKXKextManagerErrorNoMemory`, when one of the three collections cannot be
allocated. -/
def init (allocated : Bool) (kexts : κ → Kext ι) (loadInTaskFlag safeBootFlag : Bool) :
    KXKextManagerError × Option (Manager ι κ) :=
  if !allocated then (.noMemory, none)
  else
    (.none, some
      { repositoryList := ⟨[], List.nodup_nil, List.nodup_nil⟩, kexts, priorVersion := fun _ => none,
        duplicateVersion := fun _ => none, candidateKexts := ∅, kextsWithMissingDependencies := [],
        clearRelationshipsDisableCount := 0, needsClearRelationships := false,
        needsCalculateRelationships := true, performsFullTests := false,
        performLoadsInTask := loadInTaskFlag, safeBoot := safeBootFlag, teardownCount := 0 })

omit [DecidableEq ι] [DecidableEq κ] in
/-- A manager `KXKextManagerInit` makes is new: no repository, an empty
dictionary, nothing listed, and the structure to be built. -/
theorem init_new {allocated : Bool} {kexts : κ → Kext ι} {loadInTaskFlag safeBootFlag : Bool}
    {s : Manager ι κ} (h : (init allocated kexts loadInTaskFlag safeBootFlag).2 = some s) :
    s.repositoryList.list = [] ∧ s.candidateKexts = ∅ ∧ s.kextsWithMissingDependencies = [] ∧
      s.needsCalculateRelationships = true := by
  unfold init at h
  split_ifs at h
  cases h
  exact ⟨rfl, rfl, rfl, rfl⟩

/-! ### Appending repositories -/

/-- An append followed by its clear request keeps the invariant. -/
theorem keeps_addRepository (r : (s : Manager ι κ) → NewRepository s) :
    KeepsSessionInv fun s => s.addRepository (r s) :=
  keeps_clearRelationships_after_of_subset
    (g := fun s =>
      { s with repositoryList := s.repositoryList.append (r s).1 (r s).2.1 (r s).2.2.1 (r s).2.2.2 })
    (fun _ => rfl) (fun _ => rfl) (fun _ => rfl) (fun _ => rfl) (fun _ => rfl) (fun _ => rfl)
    (fun _ => rfl) (fun _ => rfl) fun s x hx => by
      simp only [Manager.allKexts, Repositories.append, List.flatMap_append, List.mem_append]
      exact .inl hx

/-- `t` is `s` with repositories appended, each followed by a clear request;
each repository is the one an initialiser makes for the manager it is given. -/
inductive Appended : Manager ι κ → Manager ι κ → Prop
  | refl (s : Manager ι κ) : Appended s s
  | add {s t : Manager ι κ} (r : (t : Manager ι κ) → NewRepository t) :
      Appended s t → Appended s (t.addRepository (r t))

/-- Appending keeps the safe-boot mode and the invariant. -/
theorem Appended.follows {m : Bool} {R : List κ} {s t : Manager ι κ} (h : Appended s t)
    (hi : SessionInv m R s) : t.safeBoot = s.safeBoot ∧ Follows m R s t := by
  induction h with
  | refl => exact ⟨rfl, .of_eq hi rfl⟩
  | add r _ ih =>
      exact ⟨((keeps_addRepository r) _ _ _ ih.2.inv).1.trans ih.1, ih.2.trans ih.1 (keeps_addRepository r)⟩

section Adds

variable [DecidableEq υ] (copyURL : Repository κ → Option υ) (copyCanonicalizedURL : υ → Option υ)
  (copyFileSystemPath : υ → Option String)

omit [DecidableEq ι] [DecidableEq υ] in
theorem addFromDirectory_appended (env : DirectoryEnvironment ι κ υ δ) {s t : Manager ι κ}
    (h : Appended s t) (dir : υ) (scanForKexts createNewCache : Bool)
    (theRepository : Option (Repository κ)) :
    Appended s (addFromDirectory env t dir scanForKexts createNewCache theRepository).manager := by
  rcases addFromDirectory_cases env t dir scanForKexts createNewCache theRepository rfl with
    ⟨hm, -⟩ | ⟨hm, -⟩
  · rw [hm]; exact h
  · rw [hm]; exact h.add fun t => (env.initWithDirectory t dir scanForKexts).2

omit [DecidableEq ι] in
theorem addRepositoryFromCacheFile_appended (fileEnv : CacheFileEnvironment δ)
    (env : CacheDictionaryEnvironment ι κ υ δ) {s : Manager ι κ} {u : υ}
    {a : Manager ι κ × KXKextManagerError × Option (Repository κ)}
    (ha : addRepositoryFromCacheFile copyURL copyCanonicalizedURL copyFileSystemPath fileEnv env s u =
      some a) :
    Appended s a.1 := by
  rcases addRepositoryFromCacheFile_cases copyURL copyCanonicalizedURL copyFileSystemPath fileEnv env s u ha
    with ⟨hm, -⟩ | ⟨d, rfl⟩
  · rw [hm]; exact .refl s
  rw [closeCacheFile_fst]
  rcases addRepositoryFromCacheDictionary_cases copyURL copyCanonicalizedURL copyFileSystemPath env s d u rfl
    with ⟨hm, -⟩ | ⟨c, -, ⟨r, -, hd⟩ | ⟨-, hd⟩⟩
  · rw [hm]; exact .refl s
  · rw [hd]; exact .refl s
  · rw [hd]; exact (Appended.refl s).add fun t => (env.initWithCache t d c).2

omit [DecidableEq ι] in
/-- Whatever path it takes, an add leaves the manager with repositories
appended. -/
theorem addRepositoryDirectory_appended (env : DirectoryEnvironment ι κ υ δ) {s : Manager ι κ}
    {dir : υ} {scanForKexts useCache : Bool} {a : DirectoryAdded ι κ}
    (ha : addRepositoryDirectory copyURL copyCanonicalizedURL copyFileSystemPath env s dir scanForKexts
      useCache = some a) :
    Appended s a.manager := by
  rcases addRepositoryDirectory_paths copyURL copyCanonicalizedURL copyFileSystemPath env ha with
    ⟨r, -, rfl⟩ | ⟨-, ⟨b, rfl, -⟩ | ⟨-, s', result, theRepository, hfile, hres⟩⟩
  · exact .refl s
  · exact addFromDirectory_appended env (.refl s) dir scanForKexts b none
  have hs' := addRepositoryFromCacheFile_appended copyURL copyCanonicalizedURL copyFileSystemPath _ _ hfile
  rcases hres with ⟨-, rfl⟩ | ⟨-, rfl⟩
  · exact hs'
  · exact addFromDirectory_appended env hs' dir scanForKexts true _

end Adds

/-! ### Removing a repository -/

section Remove

variable (s : Manager ι κ) (r : Repository κ)

/-- Outside a disabled window a removal tears the structure down first, which
leaves nothing for the removed kexts to be reached from. -/
theorem sessionInv_removeRepository_of_nonpos (hw : s.clearRelationshipsDisableCount.toInt ≤ 0)
    (m : Bool) : SessionInv m [] (s.removeRepository r) :=
  SessionInv.of_empty m
    (by simp [Manager.removeRepository, Manager.clearRelationships_of_nonpos s (not_lt.mpr hw),
      Manager.clearRepositoryRelationships_eq])
    (by simp [Manager.removeRepository, Manager.Internal.clearDependencyRelationships])
    (by simp [Manager.removeRepository, Manager.clearRelationships_of_nonpos s (not_lt.mpr hw),
      Manager.Internal.clearDependencyRelationships, Manager.clearRepositoryDependencies_eq,
      Manager.clearRepositoryRelationships_eq, Manager.Internal.clearRelationships])

omit [DecidableEq ι] in
theorem removeRepository_teardownCount :
    (s.removeRepository r).teardownCount =
      if 0 < s.clearRelationshipsDisableCount.toInt then s.teardownCount else s.teardownCount + 1 := by
  simp [Manager.removeRepository, Manager.Internal.clearDependencyRelationships,
    Manager.clearRepositoryDependencies_eq]

end Remove

/-- A call of a session, or one that changes the repository list. -/
inductive ManagerCall (ι κ υ δ : Type) [DecidableEq κ] where
  | session (c : SessionCall ι κ)
  | registry (c : RegistryCall ι κ υ δ)

namespace ManagerCall

variable [Fintype κ] [DecidableEq υ] (copyURL : Repository κ → Option υ) (copyCanonicalizedURL : υ → Option υ)
  (copyFileSystemPath : υ → Option String)

/-- The manager after a call; none when the call does not return. -/
def apply : ManagerCall ι κ υ δ → Manager ι κ → Option (Manager ι κ)
  | session c, s => some (c.apply s)
  | registry c, s => c.apply copyURL copyCanonicalizedURL copyFileSystemPath s

/-- The calls one after another, as long as each returns. -/
def run : List (ManagerCall ι κ υ δ) → Manager ι κ → Option (Manager ι κ)
  | [], s => some s
  | c :: cs, s => (c.apply copyURL copyCanonicalizedURL copyFileSystemPath s).bind (run cs)

/-- Every removal of the run is made while no window is open. -/
def OutsideWindows : List (ManagerCall ι κ υ δ) → Manager ι κ → Prop
  | [], _ => True
  | c :: cs, s =>
      (∀ dir, c = registry (.removeRepositoryDirectory dir) → s.clearRelationshipsDisableCount.toInt ≤ 0) ∧
        ∀ t, c.apply copyURL copyCanonicalizedURL copyFileSystemPath s = some t → OutsideWindows cs t

/-- Ghost: the safe-boot mode of the latest build and the kexts spliced out
since, after a call from `s` to `t`, given `g` before it.  A session call
moves them as `SessionCall.mode` and `SessionCall.spliced` say; a call that
changes the repository list resets them when it tears the structure down. -/
def ghosts : ManagerCall ι κ υ δ → Manager ι κ → Manager ι κ → Bool × List κ → Bool × List κ
  | session c, s, _, g => (c.mode s g.1, c.spliced s g.2)
  | registry _, s, t, g => if t.teardownCount = s.teardownCount then g else (s.safeBoot, [])

/-- The ghosts after a run. -/
def ghostsAfter : List (ManagerCall ι κ υ δ) → Manager ι κ → Bool × List κ → Bool × List κ
  | [], _, g => g
  | c :: cs, s, g =>
      match c.apply copyURL copyCanonicalizedURL copyFileSystemPath s with
      | some t => ghostsAfter cs t (c.ghosts s t g)
      | none => g

variable {copyURL copyCanonicalizedURL copyFileSystemPath}

/-- A run whose first call returns `t` makes its removals outside windows when
the first call does and the rest does from `t`. -/
theorem outsideWindows_cons {c : ManagerCall ι κ υ δ} {cs : List (ManagerCall ι κ υ δ)}
    {s t : Manager ι κ} (h : c.apply copyURL copyCanonicalizedURL copyFileSystemPath s = some t)
    (hc : ∀ dir, c = registry (.removeRepositoryDirectory dir) → s.clearRelationshipsDisableCount.toInt ≤ 0)
    (hcs : OutsideWindows copyURL copyCanonicalizedURL copyFileSystemPath cs t) :
    OutsideWindows copyURL copyCanonicalizedURL copyFileSystemPath (c :: cs) s :=
  ⟨hc, fun _ ht => Option.some.inj (h.symm.trans ht) ▸ hcs⟩

omit [DecidableEq υ] in
/-- A call that follows a state keeps the invariant with the ghosts it makes. -/
theorem sessionInv_registry_ghosts {c : RegistryCall ι κ υ δ} {s t : Manager ι κ}
    {g : Bool × List κ} (h : Follows g.1 g.2 s t) :
    SessionInv ((registry c).ghosts s t g).1 ((registry c).ghosts s t g).2 t := by
  have hi := h.inv
  simp only [ghosts]
  split_ifs with e
  · rwa [if_pos e, if_pos e] at hi
  · rwa [if_neg e, if_neg e] at hi

/-- **Each call keeps the invariant**, with the ghosts it makes. -/
theorem apply_sessionInv {c : ManagerCall ι κ υ δ} {s t : Manager ι κ} {g : Bool × List κ}
    (hw : ∀ dir, c = registry (.removeRepositoryDirectory dir) → s.clearRelationshipsDisableCount.toInt ≤ 0)
    (hi : SessionInv g.1 g.2 s) (h : c.apply copyURL copyCanonicalizedURL copyFileSystemPath s = some t) :
    SessionInv (c.ghosts s t g).1 (c.ghosts s t g).2 t := by
  cases c with
  | session c => cases h; exact SessionCall.sessionInv_apply hi c
  | registry c =>
      apply sessionInv_registry_ghosts
      cases c with
      | addRepositoryDirectory env dir scanForKexts useCache =>
          obtain ⟨a, ha, rfl⟩ := Option.map_eq_some'.mp h
          exact ((addRepositoryDirectory_appended copyURL copyCanonicalizedURL copyFileSystemPath
            env ha).follows hi).2
      | removeRepositoryDirectory dir =>
          cases h
          unfold Manager.removeRepositoryDirectory
          split
          · exact .of_eq hi rfl
          · have hw := hw dir rfl
            exact .of_teardown (by rw [removeRepository_teardownCount, if_neg (by omega)]; omega)
              (sessionInv_removeRepository_of_nonpos s _ hw _)

/-- Every state of a run keeps the invariant, with the ghosts of the run. -/
theorem run_sessionInv : ∀ {cs : List (ManagerCall ι κ υ δ)} {s t : Manager ι κ} {g : Bool × List κ},
    OutsideWindows copyURL copyCanonicalizedURL copyFileSystemPath cs s → SessionInv g.1 g.2 s →
      run copyURL copyCanonicalizedURL copyFileSystemPath cs s = some t →
        SessionInv (ghostsAfter copyURL copyCanonicalizedURL copyFileSystemPath cs s g).1
          (ghostsAfter copyURL copyCanonicalizedURL copyFileSystemPath cs s g).2 t
  | [], _, _, _, _, hi, h => by cases h; exact hi
  | _ :: _, _, _, _, ⟨hw, hws⟩, hi, h => by
      obtain ⟨s', h₁, h₂⟩ := Option.bind_eq_some.mp h
      unfold ghostsAfter
      rw [h₁]
      exact run_sessionInv (hws s' h₁) (apply_sessionInv hw hi h₁) h₂

/-- **What a read sees, with repositories added and removed.**  In every
state of every run from a new manager (empty dictionary, nothing listed,
structure to be built) of session calls and of directory adds and removals,
whose removals are made while no window is open: a kext reached from the head
of `I` carries `I`, belongs to the repositories and is no newer than the head;
unless the structure is stale, the kexts reached from the head of `I` are the
builder's candidates of `I` under the safe-boot mode of the latest build (the
ghost mode), less those spliced out since; and the missing list holds, after
its first entry, each kext once, none of them reached from a head. -/
theorem run_reaches {cs : List (ManagerCall ι κ υ δ)} {s t : Manager ι κ}
    (hc : s.candidateKexts = ∅) (hm : s.kextsWithMissingDependencies = [])
    (hn : s.needsCalculateRelationships = true)
    (hw : OutsideWindows copyURL copyCanonicalizedURL copyFileSystemPath cs s)
    (h : run copyURL copyCanonicalizedURL copyFileSystemPath cs s = some t) :
    (∀ I k, Reaches t I k → t.identifierOf k = I ∧ k ∈ t.allKexts ∧
      ∃ n, t.candidateKexts.lookup I = some n ∧ t.versionOf k ≤ t.versionOf n) ∧
      (t.needsCalculateRelationships = false → ∀ I k, Reaches t I k ↔
        k ∈ { t with
          safeBoot := (ghostsAfter copyURL copyCanonicalizedURL copyFileSystemPath cs s (s.safeBoot, [])).1 }.candidatesOf
            I t.candidateList ∧
        k ∉ (ghostsAfter copyURL copyCanonicalizedURL copyFileSystemPath cs s (s.safeBoot, [])).2) ∧
      (t.kextsWithMissingDependencies.drop 1).Nodup ∧
      ∀ k ∈ t.kextsWithMissingDependencies.drop 1, ∀ I, ¬ Reaches t I k := by
  have hi := run_sessionInv (g := (s.safeBoot, [])) hw (SessionInv.of_empty s.safeBoot hc hm hn) h
  obtain ⟨P, hP, hall, hfr⟩ := hi.placement
  refine ⟨fun I k hk => ?_, fun hn' I k => by rw [hP.reaches_iff, hfr hn' I], hi.missing_nodup,
    fun k hk I hr => ((hP.reaches_iff I k).mp hr).2 (hi.missing_spliced k hk)⟩
  have hkP := ((hP.reaches_iff I k).mp hk).1
  exact ⟨hP.placed_identifier I k hkP, hall I k hkP, hP.le_head hk⟩

end ManagerCall

/-! ### A run on fixed inputs -/

/-- The repository holding kexts `0` and `1` as candidates when neither is
held yet, and the empty one otherwise. -/
def pairRepository (s : Manager Nat (Fin 2)) (u : Nat) : NewRepository s :=
  if h : ∀ k ∈ [(0 : Fin 2), 1], k ∉ s.allKexts then
    ⟨{ (emptyRepository s u).1 with candidateKexts := [0, 1] },
      show ([0, 1] : List (Fin 2)).Nodup by decide, h, (emptyRepository s u).2.2.2⟩
  else emptyRepository s u

/-- `emptyRepositoryEnvironment` whose initialisation from a directory finds
kexts `0` and `1`. -/
def pairEnvironment : DirectoryEnvironment Nat (Fin 2) Nat Unit :=
  { emptyRepositoryEnvironment true with initWithDirectory := fun s u _ => (.none, pairRepository s u) }

/-- Add the directory `5` holding kexts `0` and `1` and the empty directory `3`,
remove `3`, build, prepare kext `0` with a failing resolution, and resolve with
kext `0` failing. -/
def addRemoveBuildResolve : List (ManagerCall Nat (Fin 2) Nat Unit) :=
  [.registry (.addRepositoryDirectory pairEnvironment 5 true false),
    .registry (.addRepositoryDirectory (emptyRepositoryEnvironment true) 3 true false),
    .registry (.removeRepositoryDirectory 3),
    .session (.relationship .calculateVersionRelationships),
    .session (.prepareKextForLoading unresolvedEnvironment 0 (some "") false false none),
    .session (.relationship
      (.resolveAllKextDependencies (fun k => if k = 0 then .dependency else .none) true))]

/-- The run `addRemoveBuildResolve` from the manager `KXKextManagerInit` makes
for the kexts of `sameVersionPair`: kext `1` is reached from the head of
identifier `0`, and kext `0`, spliced out, is listed twice. -/
theorem run_reaches_addRemoveBuildResolve :
    ∃ s₀, (init true sameVersionPair.kexts false false).2 = some s₀ ∧
      s₀.candidateKexts = ∅ ∧ s₀.kextsWithMissingDependencies = [] ∧
      s₀.needsCalculateRelationships = true ∧
      ManagerCall.OutsideWindows urlOfHandle canonicalDigit (fun _ => some "") addRemoveBuildResolve s₀ ∧
      ∃ t, ManagerCall.run urlOfHandle canonicalDigit (fun _ => some "") addRemoveBuildResolve s₀ = some t ∧
        Reaches t 0 1 ∧ t.kextsWithMissingDependencies = [0, 0] ∧
        (∀ I k, Reaches t I k → t.identifierOf k = I ∧ k ∈ t.allKexts ∧
          ∃ n, t.candidateKexts.lookup I = some n ∧ t.versionOf k ≤ t.versionOf n) ∧
        (t.needsCalculateRelationships = false → ∀ I k, Reaches t I k ↔
          k ∈ { t with
            safeBoot := (ManagerCall.ghostsAfter urlOfHandle canonicalDigit (fun _ => some "")
              addRemoveBuildResolve s₀ (s₀.safeBoot, [])).1 }.candidatesOf I t.candidateList ∧
          k ∉ (ManagerCall.ghostsAfter urlOfHandle canonicalDigit (fun _ => some "") addRemoveBuildResolve s₀
            (s₀.safeBoot, [])).2) ∧
        (t.kextsWithMissingDependencies.drop 1).Nodup ∧
        ∀ k ∈ t.kextsWithMissingDependencies.drop 1, ∀ I, ¬ Reaches t I k := by
  obtain ⟨s₀, hi⟩ : ∃ s₀, (init true sameVersionPair.kexts false false).2 = some s₀ := ⟨_, rfl⟩
  obtain ⟨-, hc, hm, hn⟩ := init_new hi
  have hw : ManagerCall.OutsideWindows urlOfHandle canonicalDigit (fun _ => some "") addRemoveBuildResolve
      s₀ := by
    obtain rfl := Option.some.inj (show some _ = some s₀ from hi)
    exact ManagerCall.outsideWindows_cons rfl (fun _ h => (nomatch h)) <|
      ManagerCall.outsideWindows_cons rfl (fun _ h => (nomatch h)) <|
      ManagerCall.outsideWindows_cons rfl (fun _ _ => by decide) <|
      ManagerCall.outsideWindows_cons rfl (fun _ h => (nomatch h)) <|
      ManagerCall.outsideWindows_cons rfl (fun _ h => (nomatch h)) <|
      ManagerCall.outsideWindows_cons rfl (fun _ h => (nomatch h)) trivial
  obtain rfl := Option.some.inj (show some _ = some s₀ from hi)
  exact ⟨_, hi, hc, hm, hn, hw, _, rfl, .head (by decide), by decide,
    ManagerCall.run_reaches hc hm hn hw rfl⟩

end KextManager
