/-
KextManager/Lookup.lean

Reading the chain structure: the block by which the lookups rebuild a stale
structure, the identifier lookups, `KXKextManagerCopyKextsWithIdentifier`,
`KXKextManagerCheckForLoadedKexts` and
`KXKextManagerGetLoadedOrLatestKextWithIdentifier`.

`KXKextManagerCheckForLoadedKexts` first has every repository mark its kexts
not loaded, then walks the kernel's module table (`kmod_get_info`): for each
module it looks the module's name up and marks every kext reachable from the
head, loaded if it has the module's version and as having another version
loaded otherwise.  An entry is modelled by what the loop reads of it
(`KmodInfo`); the repositories' `_KXKextRepositoryMarkKextsNotLoaded` is
modelled from the spec.

Main result: `checkForLoadedKexts_flags`, the two flags of every kext after a
check that returns `kKXKextManagerErrorNone`, for any table and any built
structure, stale or not.  The entries it acts on are `processedKmods`: the loop
skips an entry whose version does not parse with a `continue` that also skips
the test for the table's last entry, so after an unparseable last entry the
loop goes on with whatever follows it.
-/
import KextManager.Resolve

namespace KextManager

variable {ι κ : Type}

/-- A module of the kernel's table, as the loop of
`KXKextManagerCheckForLoadedKexts` reads it. -/
structure KmodInfo (ι : Type) where
  /-- The name as a `CFString`; `none` when `CFStringCreateWithCString` fails. -/
  name : Option ι
  /-- `VERS_parse_string` of the version string, negative when it does not parse. -/
  version : Int
  address : Nat
  /-- Whether the entry's `next` field is non-null. -/
  next : Bool
  deriving DecidableEq, Repr

/-- What the check does to the record of one kext of a module's chain: record
the load address, and mark the kext loaded if it has the module's version,
otherwise as having another version loaded. -/
def KmodInfo.mark (kmod : KmodInfo ι) (r : Kext ι) : Kext ι :=
  if r.version = kmod.version then { r with startAddress := kmod.address, isLoaded := true }
  else { r with startAddress := kmod.address, otherVersionIsLoaded := true }

section Mark

variable (kmod : KmodInfo ι) (r : Kext ι)

@[simp] theorem KmodInfo.mark_version : (kmod.mark r).version = r.version := by
  unfold KmodInfo.mark; split_ifs <;> rfl

@[simp] theorem KmodInfo.mark_bundleIdentifier :
    (kmod.mark r).bundleIdentifier = r.bundleIdentifier := by
  unfold KmodInfo.mark; split_ifs <;> rfl

@[simp] theorem KmodInfo.mark_isLoaded :
    (kmod.mark r).isLoaded = (r.isLoaded || decide (kmod.version = r.version)) := by
  unfold KmodInfo.mark; split_ifs with h
  · simp [h]
  · simp [Ne.symm h]

@[simp] theorem KmodInfo.mark_otherVersionIsLoaded :
    (kmod.mark r).otherVersionIsLoaded =
      (r.otherVersionIsLoaded || decide (kmod.version ≠ r.version)) := by
  unfold KmodInfo.mark; split_ifs with h
  · simp [h]
  · simp [Ne.symm h]

theorem KmodInfo.mark_mark : kmod.mark (kmod.mark r) = kmod.mark r := by
  unfold KmodInfo.mark; split_ifs <;> simp_all

end Mark

namespace Repository

variable [DecidableEq κ]

/-- Modelled from the spec: `_KXKextRepositoryMarkKextsNotLoaded` (spec §4.3,
the live-kernel reconciliation resets what it recomputes): no kext of the
repository is marked loaded or as having another version loaded. -/
def markKextsNotLoaded (r : Repository κ) (s : Manager ι κ) : Manager ι κ :=
  { s with kexts := fun k => if k ∈ r.kexts then
      { s.kexts k with isLoaded := false, otherVersionIsLoaded := false } else s.kexts k }

end Repository

namespace Manager

/-! ### Views -/

/-- The manager with what the check records of the kernel forgotten: the
two load flags and the start address of every kext. -/
def withoutLoaded (s : Manager ι κ) : Manager ι κ :=
  { s with kexts := fun k =>
      { s.kexts k with isLoaded := false, otherVersionIsLoaded := false, startAddress := 0 } }

/-- The two stale flags are down: the readers do not rebuild. -/
def Fresh (s : Manager ι κ) : Prop :=
  s.needsClearRelationships = false ∧ s.needsCalculateRelationships = false

variable [DecidableEq ι] [DecidableEq κ]

section LoadedView

variable {s s' : Manager ι κ} (h : s'.withoutLoaded = s.withoutLoaded)
include h

omit [DecidableEq ι] [DecidableEq κ] in
theorem versionOf_eq_of_withoutLoaded : s'.versionOf = s.versionOf := by
  funext k; exact congrArg (fun f => (Kext.version (f k))) (congrArg kexts h)

omit [DecidableEq ι] [DecidableEq κ] in
theorem identifierOf_eq_of_withoutLoaded : s'.identifierOf = s.identifierOf := by
  funext k; exact congrArg (fun f => (Kext.bundleIdentifier (f k))) (congrArg kexts h)

omit [DecidableEq κ] in
theorem reaches_iff_of_withoutLoaded {I : ι} {k : κ} : Reaches s' I k ↔ Reaches s I k := by
  have hc : s'.candidateKexts = s.candidateKexts := by
    have := congrArg candidateKexts h; exact this
  have hp : s'.priorVersion = s.priorVersion := by
    have := congrArg priorVersion h; exact this
  have hd : s'.duplicateVersion = s.duplicateVersion := by
    have := congrArg duplicateVersion h; exact this
  constructor <;> intro hr <;> induction hr with
  | head hk => exact .head (by simpa [hc] using hk)
  | prior _ hk ih => exact ih.prior (by simpa [hp] using hk)
  | duplicate _ hk ih => exact ih.duplicate (by simpa [hd] using hk)

omit [DecidableEq κ] in
theorem Built.of_withoutLoaded (hb : Built s) : Built s' := by
  have hc : s'.candidateKexts = s.candidateKexts := by
    have := congrArg candidateKexts h; exact this
  have hp : s'.priorVersion = s.priorVersion := by
    have := congrArg priorVersion h; exact this
  have hd : s'.duplicateVersion = s.duplicateVersion := by
    have := congrArg duplicateVersion h; exact this
  have hr : s'.repositoryList = s.repositoryList := by
    have := congrArg repositoryList h; exact this
  refine ⟨fun I => ?_, fun I k hk => ?_, fun I k hk => ?_⟩
  · rw [hc, hp, hd]; exact hb.chains I
  · rw [identifierOf_eq_of_withoutLoaded h]
    exact hb.identifierOf_eq I k ((reaches_iff_of_withoutLoaded h).mp hk)
  · unfold allKexts; rw [hr]; exact hb.mem_allKexts I k ((reaches_iff_of_withoutLoaded h).mp hk)

end LoadedView

/-! ### Rebuilding on demand -/

variable [Fintype κ]

/-- The block the lookups open with ("make sure we have the candidate kexts
arranged with their version relationships"): tear the structure down if a
clear is pending, whatever the disable count, then rebuild it if needed. -/
def ensureRelationships (s : Manager ι κ) : Manager ι κ :=
  let s := if s.needsClearRelationships then Internal.clearRelationships s else s
  if s.needsCalculateRelationships then s.calculateVersionRelationships else s

theorem ensureRelationships_of_fresh {s : Manager ι κ} (h : s.Fresh) :
    s.ensureRelationships = s := by
  simp [ensureRelationships, h.1, h.2]

/-- After the block the structure is fresh and built, whatever it was. -/
theorem ensureRelationships_fresh_built {s : Manager ι κ} (hb : Built s) :
    s.ensureRelationships.Fresh ∧ Built s.ensureRelationships := by
  unfold ensureRelationships
  by_cases hc : s.needsClearRelationships <;> by_cases hk : s.needsCalculateRelationships <;>
    simp [hc, hk, Fresh, Internal.clearRelationships, clearRepositoryRelationships_eq,
      calculateVersionRelationships_built, hb]

theorem calculateVersionRelationships_kexts_eq (s : Manager ι κ) (k : κ) :
    { s.calculateVersionRelationships.kexts k with hasAllDependencies := false } =
      { s.kexts k with hasAllDependencies := false } := by
  rw [calculateVersionRelationships_kexts, Internal.clearDependencyRelationships_kexts,
    Internal.clearRelationships_kexts]
  split_ifs <;> rfl

/-- The block changes no kext record but for `hasAllDependencies`. -/
theorem ensureRelationships_kexts (s : Manager ι κ) (k : κ) :
    { s.ensureRelationships.kexts k with hasAllDependencies := false } =
      { s.kexts k with hasAllDependencies := false } := by
  dsimp only [ensureRelationships]
  split_ifs
  · rw [calculateVersionRelationships_kexts_eq, Internal.clearRelationships_kexts]
  · rw [Internal.clearRelationships_kexts]
  · rw [calculateVersionRelationships_kexts_eq]
  · rfl

@[simp] theorem ensureRelationships_disableCount (s : Manager ι κ) :
    s.ensureRelationships.clearRelationshipsDisableCount = s.clearRelationshipsDisableCount := by
  dsimp only [ensureRelationships]; split_ifs <;> simp

@[simp] theorem ensureRelationships_repositoryList (s : Manager ι κ) :
    s.ensureRelationships.repositoryList = s.repositoryList := by
  dsimp only [ensureRelationships]; split_ifs <;> simp

/-! ### The lookups -/

/-- Along the prior-version chain from `p`, the first kext that `found`
accepts. -/
def findPriorVersionKext (s : Manager ι κ) (found : κ → Bool) : Nat → Option κ → Option κ
  | 0, _ => none
  | _ + 1, none => none
  | fuel + 1, some k => if found k then some k else s.findPriorVersionKext found fuel (s.priorVersion k)

/-- `__KXKextManagerGetKextWithIdentifierAndVersionNumber`: the head of the
identifier, or with a version number the kext of that version on its
prior-version chain. -/
def getKextWithIdentifierAndVersionNumber (s : Manager ι κ) (identifier : ι)
    (versionNumber : Option Int) : Manager ι κ × Option κ :=
  let s := s.ensureRelationships
  let foundKext := s.candidateKexts.lookup identifier
  match versionNumber with
  | none => (s, foundKext)
  | some v => (s, s.findPriorVersionKext (fun k => s.versionOf k = v) (Fintype.card κ) foundKext)

/-- `KXKextManagerGetKextWithIdentifier`. -/
def getKextWithIdentifier (s : Manager ι κ) (identifier : ι) : Manager ι κ × Option κ :=
  s.getKextWithIdentifierAndVersionNumber identifier none

/-- The scan of `__KXKextManagerGetKextWithIdentifierCompatibleWithVersionNumber`:
the first compatible kext that is loaded, else the first compatible one. -/
def scanCompatibleKexts (s : Manager ι κ) (isCompatible : κ → Bool) :
    Nat → Option κ → Option κ → Option κ
  | 0, foundKext, _ => foundKext
  | _ + 1, foundKext, none => foundKext
  | fuel + 1, foundKext, some scanKext =>
      if isCompatible scanKext then
        if (s.kexts scanKext).isLoaded then some scanKext
        else s.scanCompatibleKexts isCompatible fuel (foundKext.orElse fun _ => some scanKext)
          (s.priorVersion scanKext)
      else s.scanCompatibleKexts isCompatible fuel foundKext (s.priorVersion scanKext)

/-- `__KXKextManagerGetKextWithIdentifierCompatibleWithVersionNumber`;
`isCompatibleWithVersionNumber k v` is the external
`_KXKextIsCompatibleWithVersionNumber`. -/
def getKextWithIdentifierCompatibleWithVersionNumber
    (isCompatibleWithVersionNumber : κ → Int → Bool) (s : Manager ι κ) (identifier : ι)
    (versionNumber : Option Int) : Manager ι κ × Option κ :=
  let s := s.ensureRelationships
  let scanKext := s.candidateKexts.lookup identifier
  match versionNumber with
  | none => (s, scanKext)
  | some v => (s, s.scanCompatibleKexts (fun k => isCompatibleWithVersionNumber k v)
      (Fintype.card κ) none scanKext)

/-- The kexts of the duplicate chain from a pointer, in order. -/
def duplicateChainKexts (s : Manager ι κ) : Nat → Option κ → List κ
  | 0, _ => []
  | _ + 1, none => []
  | fuel + 1, some dupKext => dupKext :: s.duplicateChainKexts fuel (s.duplicateVersion dupKext)

/-- The kexts of the version chain from a pointer: each version node, then its
duplicates. -/
def versionChainKexts (s : Manager ι κ) : Nat → Option κ → List κ
  | 0, _ => []
  | _ + 1, none => []
  | fuel + 1, some thisKext =>
      thisKext :: s.duplicateChainKexts (Fintype.card κ) (s.duplicateVersion thisKext) ++
        s.versionChainKexts fuel (s.priorVersion thisKext)

/-- `KXKextManagerCopyKextsWithIdentifier`: every kext of the identifier's
chain, or `none` when the array cannot be created (`arrayCreated`). -/
def copyKextsWithIdentifier (arrayCreated : Bool) (s : Manager ι κ) (identifier : ι) :
    Manager ι κ × Option (List κ) :=
  if arrayCreated then
    let r := s.getKextWithIdentifier identifier
    (r.1, some (r.1.versionChainKexts (Fintype.card κ) r.2))
  else (s, none)

omit [DecidableEq ι] [DecidableEq κ] [Fintype κ] in
theorem duplicateChainKexts_eq {ds : List κ} :
    ∀ {fuel : Nat} (s : Manager ι κ) {n : κ}, DupRep s.duplicateVersion n ds → ds.length ≤ fuel →
      s.duplicateChainKexts fuel (s.duplicateVersion n) = ds := by
  induction ds with
  | nil =>
      intro fuel s n hd _
      rw [show s.duplicateVersion n = none from hd]
      cases fuel <;> rfl
  | cons d ds ih =>
      intro fuel s n hd hf
      obtain ⟨f, rfl⟩ : ∃ f, fuel = f + 1 := ⟨fuel - 1, by simp at hf; omega⟩
      rw [hd.1, duplicateChainKexts, ih s hd.2 (by simpa using hf)]

omit [DecidableEq ι] [DecidableEq κ] in
/-- Along a represented chain the copy lists exactly the chain's kexts, level
by level. -/
theorem versionChainKexts_eq :
    ∀ (fuel : Nat) (s : Manager ι κ) {h : Option κ} {L : List (List κ)},
      ChainRep s.priorVersion s.duplicateVersion h L → L.flatten.Nodup → L.length ≤ fuel →
      s.versionChainKexts fuel h = L.flatten
  | fuel, s, h, [], hc, _, _ => by
      rw [show h = none from hc]; cases fuel <;> rfl
  | _, _, _, [] :: _, hc, _, _ => hc.elim
  | 0, _, _, (_ :: _) :: _, _, _, hf => absurd hf (by simp)
  | f + 1, s, h, (n :: ds) :: L, ⟨hh, hd, _, hL⟩, hnd, hf => by
      have hnd' : (n :: ds ++ L.flatten).Nodup := by simpa using hnd
      rw [hh, versionChainKexts, duplicateChainKexts_eq s hd
        ((Nat.le_succ _).trans (List.nodup_append.mp hnd').1.length_le_card),
        versionChainKexts_eq f s hL (List.nodup_append.mp hnd').2.1 (by simpa using hf)]
      simp

/-! ### The kernel's module table -/

/-- The repositories' loop that marks all kexts not loaded. -/
def markKextsNotLoaded (s : Manager ι κ) : Manager ι κ :=
  s.repositoryList.list.foldl (fun s r => r.markKextsNotLoaded s) s

/-- The marking of one kext of a module's chain. -/
def markLoadedKext (kmod : KmodInfo ι) (s : Manager ι κ) (dupKext : κ) : Manager ι κ :=
  s.modifyKext dupKext kmod.mark

/-- The body of the loop for a module whose version parses: look its name up,
then mark every kext of the chain, each version node and its duplicates. -/
def markKmod (kmod : KmodInfo ι) (kmodName : ι) (s : Manager ι κ) : Manager ι κ :=
  let r := s.getKextWithIdentifier kmodName
  walkVersionChain
    (fun s k => walkDuplicateChain (markLoadedKext kmod) (Fintype.card κ) s (some k))
    (Fintype.card κ) r.1 r.2

/-- The loop of `KXKextManagerCheckForLoadedKexts` over the kernel's table. -/
def checkKmods : List (KmodInfo ι) → Manager ι κ → Manager ι κ × KXKextManagerError
  | [], s => (s, .none)
  | kmod :: kmods, s =>
      match kmod.name with
      | none => (s, .noMemory)
      | some kmodName =>
          if kmod.version < 0 then checkKmods kmods s
          else
            let s := s.markKmod kmod kmodName
            if kmod.next then checkKmods kmods s else (s, .none)

/-- `KXKextManagerCheckForLoadedKexts`; `kmodInfo` is what `kmod_get_info`
returns, `none` when it fails. -/
def checkForLoadedKexts (kmodInfo : Option (List (KmodInfo ι))) (s : Manager ι κ) :
    Manager ι κ × KXKextManagerError :=
  let s := s.markKextsNotLoaded
  match kmodInfo with
  | none => (s, .unspecified)
  | some kmods => checkKmods kmods s

/-- `KXKextManagerGetLoadedOrLatestKextWithIdentifier`: after a check of the
kernel's table (whose failure is ignored), the first loaded kext on the
prior-version chain of the identifier, else its head. -/
def getLoadedOrLatestKextWithIdentifier (kmodInfo : Option (List (KmodInfo ι)))
    (s : Manager ι κ) (identifier : ι) : Manager ι κ × Option κ :=
  let s := (s.ensureRelationships.checkForLoadedKexts kmodInfo).1
  let foundKext := s.candidateKexts.lookup identifier
  (s, (s.findPriorVersionKext (fun k => (s.kexts k).isLoaded) (Fintype.card κ) foundKext).orElse
    fun _ => foundKext)

omit [DecidableEq ι] [Fintype κ] in
theorem markKextsNotLoaded_kexts (s : Manager ι κ) (k : κ) :
    s.markKextsNotLoaded.kexts k = if k ∈ s.allKexts then
      { s.kexts k with isLoaded := false, otherVersionIsLoaded := false } else s.kexts k := by
  suffices ∀ (rs : List (Repository κ)) (s : Manager ι κ),
      (rs.foldl (fun s r => r.markKextsNotLoaded s) s).kexts k =
        if k ∈ rs.flatMap Repository.kexts then
          { s.kexts k with isLoaded := false, otherVersionIsLoaded := false } else s.kexts k from
    this _ s
  intro rs
  induction rs with
  | nil => simp
  | cons r rs ih =>
      intro s
      rw [List.foldl_cons, ih]
      by_cases h1 : k ∈ r.kexts <;> simp [Repository.markKextsNotLoaded, h1]

omit [DecidableEq ι] [Fintype κ] in
theorem markKextsNotLoaded_withoutLoaded (s : Manager ι κ) :
    s.markKextsNotLoaded.withoutLoaded = s.withoutLoaded := by
  have hk := markKextsNotLoaded_kexts s
  have : s.markKextsNotLoaded = { s with kexts := s.markKextsNotLoaded.kexts } := by
    suffices ∀ (rs : List (Repository κ)) (s : Manager ι κ),
        rs.foldl (fun s r => r.markKextsNotLoaded s) s =
          { s with kexts := (rs.foldl (fun s r => r.markKextsNotLoaded s) s).kexts } from this _ s
    intro rs; induction rs with
    | nil => intro s; rfl
    | cons r rs ih => intro s; rw [List.foldl_cons, ih]; rfl
  rw [this]; unfold withoutLoaded; congr 1; funext k; rw [hk]; split_ifs <;> rfl

/-- The names the check processes, when every name converts: the entries with
a parseable version, up to the first such entry whose `next` is null. -/
def processedKmods : List (KmodInfo ι) → List (KmodInfo ι)
  | [] => []
  | kmod :: kmods =>
      if kmod.version < 0 then processedKmods kmods
      else kmod :: if kmod.next then processedKmods kmods else []

omit [DecidableEq ι] [Fintype κ] in
theorem markLoadedKext_keepsLinks (kmod : KmodInfo ι) :
    KeepsLinks (markLoadedKext (κ := κ) kmod) := fun _ _ => ⟨rfl, rfl⟩

omit [DecidableEq ι] [Fintype κ] in
theorem foldl_markLoadedKext_kexts (kmod : KmodInfo ι) (xs : List κ) (s : Manager ι κ) (k : κ) :
    (xs.foldl (markLoadedKext kmod) s).kexts k = if k ∈ xs then kmod.mark (s.kexts k) else s.kexts k := by
  induction xs generalizing s with
  | nil => simp
  | cons x xs ih =>
      rw [List.foldl_cons, ih]
      by_cases hx : k = x
      · subst hx; by_cases h : k ∈ xs <;> simp [markLoadedKext, h, KmodInfo.mark_mark]
      · simp [markLoadedKext, hx]

omit [DecidableEq ι] [Fintype κ] in
theorem foldl_markLoadedKext_withoutLoaded (kmod : KmodInfo ι) (xs : List κ) (s : Manager ι κ) :
    (xs.foldl (markLoadedKext kmod) s).withoutLoaded = s.withoutLoaded := by
  induction xs generalizing s with
  | nil => rfl
  | cons x xs ih =>
      rw [List.foldl_cons, ih]
      unfold withoutLoaded markLoadedKext modifyKext
      congr 1; funext k
      by_cases h : k = x
      · subst h; simp only [Function.update_same]; unfold KmodInfo.mark; split_ifs <;> rfl
      · simp only [Function.update_noteq h]

/-- **One module of the table.**  On a built structure, looking the module's
name up and walking the chain marks exactly the kexts reachable from the head
of that name, in the rebuilt structure if it was stale. -/
theorem markKmod_spec {s : Manager ι κ} (hb : Built s) (kmod : KmodInfo ι) (I : ι) :
    (s.markKmod kmod I).Fresh ∧
      (s.markKmod kmod I).withoutLoaded = s.ensureRelationships.withoutLoaded ∧
      Built (s.markKmod kmod I) ∧
      ∀ k, (Reaches s.ensureRelationships I k →
          (s.markKmod kmod I).kexts k = kmod.mark (s.ensureRelationships.kexts k)) ∧
        (¬ Reaches s.ensureRelationships I k →
          (s.markKmod kmod I).kexts k = s.ensureRelationships.kexts k) := by
  obtain ⟨hf, hb'⟩ := ensureRelationships_fresh_built hb
  obtain ⟨L, hc, hnd⟩ := hb'.chains I
  have hbody : ∀ (s : Manager ι κ) n ds, DupRep s.duplicateVersion n ds → (n :: ds).Nodup →
      walkDuplicateChain (markLoadedKext kmod) (Fintype.card κ) s (some n) =
        (n :: ds).foldl (markLoadedKext kmod) s := fun s n ds hd hnd =>
    walkDuplicateChain_some (markLoadedKext_keepsLinks kmod) s hd
      (by have := hnd.length_le_card; simp only [List.length_cons] at this; omega)
  have hwalk := walkVersionChain_eq (markLoadedKext_keepsLinks kmod) hbody
    (Fintype.card κ) _ hc hnd (hc.length_le.trans hnd.length_le_card)
  have hview := foldl_markLoadedKext_withoutLoaded kmod L.flatten s.ensureRelationships
  simp only [markKmod, getKextWithIdentifier, getKextWithIdentifierAndVersionNumber]
  rw [hwalk]
  refine ⟨⟨?_, ?_⟩, hview, Built.of_withoutLoaded hview hb', fun k => ⟨fun hk => ?_, fun hk => ?_⟩⟩
  · exact (congrArg needsClearRelationships hview).trans hf.1
  · exact (congrArg needsCalculateRelationships hview).trans hf.2
  · rw [foldl_markLoadedKext_kexts, if_pos ((reaches_iff_mem_of_chainRep hc k).mp hk)]
  · rw [foldl_markLoadedKext_kexts, if_neg (mt (reaches_iff_mem_of_chainRep hc k).mpr hk)]

@[simp] theorem ensureRelationships_identifierOf (s : Manager ι κ) :
    s.ensureRelationships.identifierOf = s.identifierOf := by
  funext k
  have := congrArg Kext.bundleIdentifier (ensureRelationships_kexts s k); exact this

@[simp] theorem ensureRelationships_versionOf (s : Manager ι κ) :
    s.ensureRelationships.versionOf = s.versionOf := by
  funext k
  have := congrArg Kext.version (ensureRelationships_kexts s k); exact this

/-- The loop keeps a built structure, and ends with the structure it found or
the one its first lookup rebuilt. -/
theorem checkKmods_structure : ∀ (kmods : List (KmodInfo ι)) (s : Manager ι κ), Built s →
    Built (checkKmods kmods s).1 ∧ ((checkKmods kmods s).1.withoutLoaded = s.withoutLoaded ∨
      (checkKmods kmods s).1.withoutLoaded = s.ensureRelationships.withoutLoaded)
  | [], _, hb => ⟨hb, .inl rfl⟩
  | kmod :: kmods, s, hb => by
      rcases hn : kmod.name with _ | I
      · simp only [checkKmods, hn]; exact ⟨hb, by simp⟩
      by_cases hv : kmod.version < 0
      · simp only [checkKmods, hn, if_pos hv]; exact checkKmods_structure kmods s hb
      obtain ⟨hf₂, hv₂, hb₂, -⟩ := markKmod_spec hb kmod I
      simp only [checkKmods, hn, if_neg hv]
      split
      · obtain ⟨hb', hs⟩ := checkKmods_structure kmods _ hb₂
        rw [ensureRelationships_of_fresh hf₂, or_self] at hs
        exact ⟨hb', .inr (hs.trans hv₂)⟩
      · exact ⟨hb₂, .inr hv₂⟩

/-- What the loop's end state shares with the state it started from. -/
theorem checkKmods_fields (kmods : List (KmodInfo ι)) {s : Manager ι κ} (hb : Built s) :
    (checkKmods kmods s).1.identifierOf = s.identifierOf ∧
      (checkKmods kmods s).1.versionOf = s.versionOf ∧
      (checkKmods kmods s).1.repositoryList = s.repositoryList := by
  rcases (checkKmods_structure kmods s hb).2 with h | h
  · exact ⟨identifierOf_eq_of_withoutLoaded h, versionOf_eq_of_withoutLoaded h,
      by have := congrArg repositoryList h; exact this⟩
  · refine ⟨(identifierOf_eq_of_withoutLoaded h).trans (ensureRelationships_identifierOf s),
      (versionOf_eq_of_withoutLoaded h).trans (ensureRelationships_versionOf s), ?_⟩
    have := congrArg repositoryList h
    exact this.trans (ensureRelationships_repositoryList s)

section Flag

/-! A flag that a module's mark can only raise, as `isLoaded` and
`otherVersionIsLoaded` are, the first raised when `test` holds of the module's
version and the kext's. -/

variable (flag : Kext ι → Bool) (test : Int → Int → Prop) [DecidableRel test]
  (hmark : ∀ (kmod : KmodInfo ι) r, flag (kmod.mark r) = (flag r || decide (test kmod.version r.version)))
  (hens : ∀ (s : Manager ι κ) k, flag (s.ensureRelationships.kexts k) = flag (s.kexts k))
include hmark hens

/-- After one module, the flag is up on the kexts it had, and on those of the
module's chain whose version passes the test. -/
theorem markKmod_flag {s : Manager ι κ} (hb : Built s) (kmod : KmodInfo ι) (I : ι) (k : κ) :
    flag ((s.markKmod kmod I).kexts k) = true ↔
      flag (s.kexts k) = true ∨ (Reaches (s.markKmod kmod I) I k ∧ test kmod.version (s.versionOf k)) := by
  obtain ⟨-, hv, -, hk⟩ := markKmod_spec hb kmod I
  rw [reaches_iff_of_withoutLoaded hv]
  by_cases hr : Reaches s.ensureRelationships I k
  · rw [(hk k).1 hr, hmark, hens,
      show (s.ensureRelationships.kexts k).version = s.versionOf k from
        congrFun (ensureRelationships_versionOf s) k]
    simp [hr]
  · rw [(hk k).2 hr, hens]; simp [hr]

/-- **The loop over the table, one flag.**  When the loop ends without error, a
kext's flag is up iff it was, or some processed module carries the kext's
identifier, passes the test against its version, and the kext is reachable
from the head of that identifier in the final structure. -/
theorem checkKmods_flag : ∀ (kmods : List (KmodInfo ι)) (s : Manager ι κ), Built s →
    (checkKmods kmods s).2 = .none → ∀ k,
      (flag ((checkKmods kmods s).1.kexts k) = true ↔ flag (s.kexts k) = true ∨
        ∃ e ∈ processedKmods kmods, e.name = some (s.identifierOf k) ∧
          test e.version (s.versionOf k) ∧ Reaches (checkKmods kmods s).1 (s.identifierOf k) k)
  | [], s, _, _, k => by simp [checkKmods, processedKmods]
  | kmod :: kmods, s, hb, hres, k => by
      rcases hn : kmod.name with _ | I
      · simp [checkKmods, hn] at hres
      by_cases hv : kmod.version < 0
      · simp only [checkKmods, hn, if_pos hv] at hres ⊢
        rw [processedKmods, if_pos hv]
        exact checkKmods_flag kmods s hb hres k
      obtain ⟨hf₂, hv₂, hb₂, -⟩ := markKmod_spec hb kmod I
      have hid : (s.markKmod kmod I).identifierOf = s.identifierOf := by
        rw [identifierOf_eq_of_withoutLoaded hv₂, ensureRelationships_identifierOf]
      have hver : (s.markKmod kmod I).versionOf = s.versionOf := by
        rw [versionOf_eq_of_withoutLoaded hv₂, ensureRelationships_versionOf]
      -- the module's own contribution, stated as the loop's conclusion states it
      have hown : ∀ s' : Manager ι κ, s'.withoutLoaded = (s.markKmod kmod I).withoutLoaded →
          ((Reaches (s.markKmod kmod I) I k ∧ test kmod.version (s.versionOf k)) ↔
            (some I = some (s.identifierOf k) ∧ test kmod.version (s.versionOf k) ∧
              Reaches s' (s.identifierOf k) k)) := fun s' hs' => by
        rw [Option.some.injEq, reaches_iff_of_withoutLoaded hs']
        constructor
        · rintro ⟨hr, ht⟩
          have hI : s.identifierOf k = I := by rw [← hid]; exact hb₂.identifierOf_eq I k hr
          exact ⟨hI.symm, ht, hI ▸ hr⟩
        · rintro ⟨rfl, ht, hr⟩
          exact ⟨hr, ht⟩
      have h₂ := markKmod_flag flag test hmark hens hb kmod I k
      rw [processedKmods, if_neg hv]
      simp only [List.mem_cons, or_and_right, exists_or, exists_eq_left]
      simp only [checkKmods, hn, if_neg hv] at hres ⊢
      cases hnext : kmod.next
      · simp only [hnext, if_false, List.not_mem_nil, false_and, exists_false, or_false,
          Bool.false_eq_true] at hres ⊢
        rw [h₂, hown _ rfl]
      · simp only [hnext, if_true] at hres ⊢
        have hs := (checkKmods_structure kmods _ hb₂).2
        rw [ensureRelationships_of_fresh hf₂, or_self] at hs
        rw [checkKmods_flag kmods _ hb₂ hres k, h₂, hid, hver, hown _ hs, or_assoc]

end Flag

section Invariant

variable {β : Type} (g : Manager ι κ → β) (hens : ∀ s, g s.ensureRelationships = g s)
  (hmark : ∀ kmod s k, g (markLoadedKext kmod s k) = g s)
include hens hmark

/-- A view kept by the rebuild and by each mark is kept by a module's marking. -/
theorem markKmod_invariant (kmod : KmodInfo ι) (I : ι) (s : Manager ι κ) :
    g (s.markKmod kmod I) = g s :=
  (walkVersionChain_invariant g (fun s _ => walkDuplicateChain_invariant g (hmark kmod) _ s _) _ _
    _).trans (hens s)

/-- ... and by the whole loop over the table. -/
theorem checkKmods_invariant : ∀ (kmods : List (KmodInfo ι)) (s : Manager ι κ),
    g (checkKmods kmods s).1 = g s
  | [], _ => rfl
  | kmod :: kmods, s => by
      rcases hn : kmod.name with _ | I
      · simp only [checkKmods, hn]
      · simp only [checkKmods, hn]
        split_ifs
        · exact checkKmods_invariant kmods s
        · rw [checkKmods_invariant kmods, markKmod_invariant g hens hmark]
        · exact markKmod_invariant g hens hmark kmod I s

/-- ... and by the check, when the repositories' marking keeps it too. -/
theorem checkForLoadedKexts_invariant (hnot : ∀ s, g s.markKextsNotLoaded = g s)
    (kmodInfo : Option (List (KmodInfo ι))) (s : Manager ι κ) :
    g (s.checkForLoadedKexts kmodInfo).1 = g s := by
  cases kmodInfo with
  | none => exact hnot s
  | some kmods => exact (checkKmods_invariant g hens hmark kmods _).trans (hnot s)

end Invariant

@[simp] theorem checkForLoadedKexts_disableCount (kmodInfo : Option (List (KmodInfo ι)))
    (s : Manager ι κ) :
    (s.checkForLoadedKexts kmodInfo).1.clearRelationshipsDisableCount =
      s.clearRelationshipsDisableCount :=
  checkForLoadedKexts_invariant clearRelationshipsDisableCount ensureRelationships_disableCount
    (fun _ _ _ => rfl) (fun s => by
      have := congrArg clearRelationshipsDisableCount (markKextsNotLoaded_withoutLoaded s)
      exact this) kmodInfo s

/-- The table checked, what the final state of a successful check is: the
repositories' kexts marked not loaded, then each processed module marked. -/
theorem checkForLoadedKexts_some (kmods : List (KmodInfo ι)) (s : Manager ι κ) :
    s.checkForLoadedKexts (some kmods) = checkKmods kmods s.markKextsNotLoaded := rfl

/-- **The flags after a check.**  For any kernel table and any built structure,
stale or not, when `KXKextManagerCheckForLoadedKexts` returns
`kKXKextManagerErrorNone` a kext `m` reachable from the head of `I` is marked
loaded iff some processed module is named `I` and has `m`'s version, and as
having another version loaded iff some processed module is named `I` and has
another version; every other kext of the repositories has both flags down.
The processed modules are those of `processedKmods`. -/
theorem checkForLoadedKexts_flags (kmods : List (KmodInfo ι)) (s : Manager ι κ) (hb : Built s)
    (hres : (s.checkForLoadedKexts (some kmods)).2 = .none) :
    (∀ I m, Reaches (s.checkForLoadedKexts (some kmods)).1 I m →
      ((((s.checkForLoadedKexts (some kmods)).1.kexts m).isLoaded = true ↔
          ∃ e ∈ processedKmods kmods, e.name = some I ∧ e.version = s.versionOf m) ∧
        (((s.checkForLoadedKexts (some kmods)).1.kexts m).otherVersionIsLoaded = true ↔
          ∃ e ∈ processedKmods kmods, e.name = some I ∧ e.version ≠ s.versionOf m))) ∧
      ∀ m ∈ s.allKexts, (∀ I, ¬ Reaches (s.checkForLoadedKexts (some kmods)).1 I m) →
        ((s.checkForLoadedKexts (some kmods)).1.kexts m).isLoaded = false ∧
          ((s.checkForLoadedKexts (some kmods)).1.kexts m).otherVersionIsLoaded = false := by
  rw [checkForLoadedKexts_some] at hres ⊢
  have hv₀ := markKextsNotLoaded_withoutLoaded s
  have hb₀ := Built.of_withoutLoaded hv₀ hb
  have hens₁ : ∀ (s : Manager ι κ) k,
      (s.ensureRelationships.kexts k).isLoaded = (s.kexts k).isLoaded :=
    fun s k => by have := congrArg Kext.isLoaded (ensureRelationships_kexts s k); exact this
  have hens₂ : ∀ (s : Manager ι κ) k, (s.ensureRelationships.kexts k).otherVersionIsLoaded =
      (s.kexts k).otherVersionIsLoaded :=
    fun s k => by
      have := congrArg Kext.otherVersionIsLoaded (ensureRelationships_kexts s k); exact this
  have hl := checkKmods_flag Kext.isLoaded (· = ·) (fun kmod r => KmodInfo.mark_isLoaded kmod r)
    hens₁ kmods _ hb₀ hres
  have ho := checkKmods_flag Kext.otherVersionIsLoaded (· ≠ ·)
    (fun kmod r => KmodInfo.mark_otherVersionIsLoaded kmod r) hens₂ kmods _ hb₀ hres
  have hb' := (checkKmods_structure kmods _ hb₀).1
  obtain ⟨hid', -, hrep'⟩ := checkKmods_fields kmods hb₀
  have hid₀ := identifierOf_eq_of_withoutLoaded hv₀
  have hmem : ∀ m ∈ s.allKexts, (s.markKextsNotLoaded.kexts m).isLoaded = false ∧
      (s.markKextsNotLoaded.kexts m).otherVersionIsLoaded = false := fun m hm => by
    simp [markKextsNotLoaded_kexts, hm]
  simp only [hid₀, versionOf_eq_of_withoutLoaded hv₀] at hl ho
  refine ⟨fun I m hr => ?_, fun m hm hr => ?_⟩
  · have hm : m ∈ s.allKexts := by
      have := hb'.mem_allKexts I m hr
      unfold allKexts at this ⊢
      rwa [hrep', show s.markKextsNotLoaded.repositoryList = s.repositoryList by
        have := congrArg repositoryList hv₀; exact this] at this
    have hI : s.identifierOf m = I := by
      rw [← hid₀, ← hid']; exact hb'.identifierOf_eq I m hr
    rw [hl m, ho m, (hmem m hm).1, (hmem m hm).2, hI]
    simp [hr]
  · have h₁ := hl m
    have h₂ := ho m
    simp only [(hmem m hm).1, (hmem m hm).2, hr, and_false, exists_false, or_false,
      Bool.false_eq_true, iff_false, Bool.not_eq_true] at h₁ h₂
    exact ⟨h₁, h₂⟩

/-- The built `sameVersionPair` with a kernel table listing identifier `0` at
the version of both kexts. -/
theorem checkForLoadedKexts_flags_pair :
    ∃ (s : Manager Nat (Fin 2)) (kmods : List (KmodInfo Nat)),
      s = sameVersionPair.calculateVersionRelationships ∧ kmods = [⟨some 0, 1, 4096, false⟩] ∧
      Built s ∧ (s.checkForLoadedKexts (some kmods)).2 = .none ∧
      (∀ I m, Reaches (s.checkForLoadedKexts (some kmods)).1 I m →
        ((((s.checkForLoadedKexts (some kmods)).1.kexts m).isLoaded = true ↔
            ∃ e ∈ processedKmods kmods, e.name = some I ∧ e.version = s.versionOf m) ∧
          (((s.checkForLoadedKexts (some kmods)).1.kexts m).otherVersionIsLoaded = true ↔
            ∃ e ∈ processedKmods kmods, e.name = some I ∧ e.version ≠ s.versionOf m))) ∧
        ∀ m ∈ s.allKexts, (∀ I, ¬ Reaches (s.checkForLoadedKexts (some kmods)).1 I m) →
          ((s.checkForLoadedKexts (some kmods)).1.kexts m).isLoaded = false ∧
            ((s.checkForLoadedKexts (some kmods)).1.kexts m).otherVersionIsLoaded = false :=
  have hb := calculateVersionRelationships_built sameVersionPair
  have hres : (sameVersionPair.calculateVersionRelationships.checkForLoadedKexts
      (some [⟨some 0, 1, 4096, false⟩])).2 = .none := by decide
  ⟨_, _, rfl, rfl, hb, hres, checkForLoadedKexts_flags _ _ hb hres⟩

end Manager

/-- A kernel table whose first entry is its last (`next` null) but has a
version that does not parse, followed by an entry for the same identifier
with the version of both kexts of `sameVersionPair`: the check returns
`kKXKextManagerErrorNone` and marks the head loaded from the second entry. -/
theorem checkForLoadedKexts_runs_past_last_entry :
    (sameVersionPair.calculateVersionRelationships.checkForLoadedKexts
        (some [⟨some 0, -1, 0, false⟩, ⟨some 0, 1, 0, false⟩])).2 = .none ∧
      Reaches (sameVersionPair.calculateVersionRelationships.checkForLoadedKexts
        (some [⟨some 0, -1, 0, false⟩, ⟨some 0, 1, 0, false⟩])).1 0 0 ∧
      ((sameVersionPair.calculateVersionRelationships.checkForLoadedKexts
        (some [⟨some 0, -1, 0, false⟩, ⟨some 0, 1, 0, false⟩])).1.kexts 0).isLoaded = true :=
  ⟨by decide, .head (by decide), by decide⟩

end KextManager
