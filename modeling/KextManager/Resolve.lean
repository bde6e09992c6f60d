/-
KextManager/Resolve.lean

`KXKextManagerResolveAllKextDependencies`.  Pass 1 asks every kext reachable
from a head, version nodes and duplicates alike, to resolve its dependencies
(`KXKextResolveDependencies`, in `KXKext.c` and modelled from the spec as
recording whether resolution succeeded in `hasAllDependencies`).  Pass 2 walks
each chain again and splices out the kexts lacking dependencies, recording
them in `kextsWithMissingDependencies`: a failing version node is bypassed, or
replaced by its first duplicate, which is then checked in turn; below a passing
node the duplicates are checked by peeking ahead.  The peek starts one link
past the first duplicate, so the first duplicate of a passing node is never
checked.

The abstract effect of pass 2 on one level is `filterLevel` (what survives)
and `removedLevel` (what is recorded), and on a chain `filterChain` and
`removedChain`.  Main results: the walk over one chain realises them
(`removeKextsMissingDependencies_spec`), and what survives is the chain with
the recorded kexts erased (`filterChain_eq_eraseMissing`).  The kexts the walk
examines, as `thisKext` or as `peekDupKext`, are traced along the same states
(`removeKextsMissingDependenciesExamined`); on a built structure the walk ends
within its fuel and examines each kext of the chain at most once
(`removeKextsMissingDependencies_examines_once`).
-/
import KextManager.Build

namespace KextManager

variable {ι κ : Type}

/-! ### Pass 2 on abstract chains -/

section Abstract

variable (ok : κ → Bool)

/-- What pass 2 keeps of one level: failing version nodes are dropped, the
next duplicate taking their place; below a passing node the first duplicate is
kept unchecked and the others are filtered. -/
def filterLevel : List κ → List κ
  | [] => []
  | n :: ds =>
      if ok n then
        match ds with
        | [] => [n]
        | d :: rest => n :: d :: rest.filter ok
      else filterLevel ds

/-- What pass 2 records of one level, in order. -/
def removedLevel : List κ → List κ
  | [] => []
  | n :: ds =>
      if ok n then
        match ds with
        | [] => []
        | _ :: rest => rest.filter (fun x => !ok x)
      else n :: removedLevel ds

/-- What pass 2 keeps of a chain: each level filtered, emptied levels gone. -/
def filterChain (L : List (List κ)) : List (List κ) :=
  (L.map (filterLevel ok)).filter (fun l => !l.isEmpty)

/-- What pass 2 records of a chain, level by level. -/
def removedChain (L : List (List κ)) : List κ :=
  L.flatMap (removedLevel ok)

theorem removedLevel_sublist : ∀ l : List κ, List.Sublist (removedLevel ok l) l
  | [] => .slnil
  | n :: ds => by
      cases h : ok n
      · simp only [removedLevel, h]; exact (removedLevel_sublist ds).cons₂ n
      · cases ds with
        | nil => simp [removedLevel, h]
        | cons d rest =>
            simp only [removedLevel, h, if_true]
            exact ((List.filter_sublist rest).cons d).cons n

theorem filterLevel_sublist : ∀ l : List κ, List.Sublist (filterLevel ok l) l
  | [] => .slnil
  | n :: ds => by
      cases h : ok n
      · simp only [filterLevel, h]; exact (filterLevel_sublist ds).cons n
      · cases ds with
        | nil => simp [filterLevel, h]
        | cons d rest =>
            simp only [filterLevel, h, if_true]
            exact ((List.filter_sublist rest).cons₂ d).cons₂ n

/-- A passing version node stays at the head of its level. -/
theorem filterLevel_of_ok {n : κ} (ds : List κ) (h : ok n = true) :
    filterLevel ok (n :: ds) = n :: (filterLevel ok (n :: ds)).tail := by
  cases ds <;> simp [filterLevel, h]

theorem removedChain_sublist (L : List (List κ)) : List.Sublist (removedChain ok L) L.flatten := by
  induction L with
  | nil => exact .slnil
  | cons l L ih => exact (removedLevel_sublist ok l).append ih

theorem filterChain_cons (l : List κ) (L : List (List κ)) :
    filterChain ok (l :: L) =
      if (filterLevel ok l).isEmpty then filterChain ok L
      else filterLevel ok l :: filterChain ok L := by
  unfold filterChain
  rw [List.map_cons, List.filter_cons]
  cases (filterLevel ok l).isEmpty <;> rfl

theorem filterChain_flatten_sublist (L : List (List κ)) :
    List.Sublist (filterChain ok L).flatten L.flatten := by
  induction L with
  | nil => exact .slnil
  | cons l L ih =>
      rw [filterChain_cons]
      split_ifs
      · exact ih.trans (List.sublist_append_right _ _)
      · exact (filterLevel_sublist ok l).append ih

/-- What pass 2 examines of one level, as `thisKext` or as `peekDupKext`: each
failing version node and the duplicate taking its place, and below a passing
node its duplicates but the first. -/
def examinedLevel : List κ → List κ
  | [] => []
  | n :: ds => if ok n then n :: ds.tail else n :: examinedLevel ds

/-- What pass 2 examines of a chain, level by level. -/
def examinedChain (L : List (List κ)) : List κ :=
  L.flatMap (examinedLevel ok)

theorem examinedLevel_sublist : ∀ l : List κ, List.Sublist (examinedLevel ok l) l
  | [] => .slnil
  | n :: ds => by
      unfold examinedLevel
      split_ifs
      · exact (List.tail_sublist ds).cons₂ n
      · exact (examinedLevel_sublist ds).cons₂ n

theorem examinedChain_sublist (L : List (List κ)) :
    List.Sublist (examinedChain ok L) L.flatten := by
  induction L with
  | nil => exact .slnil
  | cons l L ih => exact (examinedLevel_sublist ok l).append ih

end Abstract

section Congr

variable {ok ok' : κ → Bool}

/-- Pass 2 reads the flags of the kexts of the chain only. -/
theorem filterLevel_congr :
    ∀ {l : List κ}, (∀ x ∈ l, ok x = ok' x) → filterLevel ok l = filterLevel ok' l
  | [], _ => rfl
  | n :: ds, h => by
      have ih := filterLevel_congr fun x hx => h x (List.mem_cons_of_mem n hx)
      have hf : ds.tail.filter ok = ds.tail.filter ok' :=
        List.filter_congr fun x hx => h x (List.mem_cons_of_mem n (List.mem_of_mem_tail hx))
      cases ds <;> simp_all [filterLevel]

theorem removedLevel_congr :
    ∀ {l : List κ}, (∀ x ∈ l, ok x = ok' x) → removedLevel ok l = removedLevel ok' l
  | [], _ => rfl
  | n :: ds, h => by
      have ih := removedLevel_congr fun x hx => h x (List.mem_cons_of_mem n hx)
      have hf : ds.tail.filter (fun x => !ok x) = ds.tail.filter (fun x => !ok' x) :=
        List.filter_congr fun x hx => by
          rw [h x (List.mem_cons_of_mem n (List.mem_of_mem_tail hx))]
      cases ds <;> simp_all [removedLevel]

theorem filterChain_congr {L : List (List κ)} (h : ∀ x ∈ L.flatten, ok x = ok' x) :
    filterChain ok L = filterChain ok' L := by
  unfold filterChain
  rw [List.map_congr_left fun l hl =>
    filterLevel_congr fun x hx => h x (List.mem_flatten.mpr ⟨l, hl, hx⟩)]

theorem removedChain_congr {L : List (List κ)} (h : ∀ x ∈ L.flatten, ok x = ok' x) :
    removedChain ok L = removedChain ok' L :=
  List.flatMap_congr fun l hl =>
    removedLevel_congr fun x hx => h x (List.mem_flatten.mpr ⟨l, hl, hx⟩)

end Congr

/-- A chain with the kexts of `M` erased, emptied levels gone. -/
def eraseMissing [DecidableEq κ] (M : List κ) (L : List (List κ)) : List (List κ) :=
  (L.map (fun l => l.filter (fun x => x ∉ M))).filter (fun l => !l.isEmpty)

section Erase

variable [DecidableEq κ]

theorem eraseMissing_cons (M : List κ) (l : List κ) (L : List (List κ)) :
    eraseMissing M (l :: L) =
      if (l.filter (fun x => x ∉ M)).isEmpty then eraseMissing M L
      else l.filter (fun x => x ∉ M) :: eraseMissing M L := by
  unfold eraseMissing
  rw [List.map_cons, List.filter_cons]
  cases (l.filter (fun x => x ∉ M)).isEmpty <;> rfl

/-- Erasing keeps the surviving kexts in their order. -/
theorem flatten_eraseMissing (M : List κ) (L : List (List κ)) :
    (eraseMissing M L).flatten = L.flatten.filter (fun x => x ∉ M) := by
  induction L with
  | nil => rfl
  | cons l L ih =>
      rw [eraseMissing_cons, List.flatten_cons, List.filter_append]
      split_ifs with h
      · rw [ih, List.isEmpty_iff.mp h, List.nil_append]
      · rw [List.flatten_cons, ih]

theorem mem_flatten_eraseMissing {M : List κ} {L : List (List κ)} {x : κ} :
    x ∈ (eraseMissing M L).flatten ↔ x ∈ L.flatten ∧ x ∉ M := by
  rw [flatten_eraseMissing, List.mem_filter, decide_eq_true_iff]

/-- Only the erased kexts that occur in the chain matter. -/
theorem eraseMissing_congr {M M' : List κ} {L : List (List κ)}
    (h : ∀ x ∈ L.flatten, x ∈ M ↔ x ∈ M') : eraseMissing M L = eraseMissing M' L := by
  unfold eraseMissing
  congr 1
  refine List.map_congr_left fun l hl => List.filter_congr fun x hx => ?_
  simp [h x (List.mem_flatten.mpr ⟨l, hl, hx⟩)]

/-- Erasing twice is erasing both lists. -/
theorem eraseMissing_eraseMissing (A B : List κ) (L : List (List κ)) :
    eraseMissing A (eraseMissing B L) = eraseMissing (B ++ A) L := by
  have hl : ∀ l : List κ, (l.filter (fun x => x ∉ B)).filter (fun x => x ∉ A) =
      l.filter (fun x => x ∉ B ++ A) := fun l => by
    rw [List.filter_filter]; exact List.filter_congr fun x _ => by simp [and_comm]
  induction L with
  | nil => rfl
  | cons l L ih =>
      rw [eraseMissing_cons B, eraseMissing_cons (B ++ A)]
      split_ifs with h1 h2 h2
      · exact ih
      · rw [← hl, List.isEmpty_iff.mp h1] at h2; exact absurd rfl h2
      · rw [eraseMissing_cons, hl, if_pos h2, ih]
      · rw [eraseMissing_cons, hl, if_neg h2, ih]

theorem eraseMissing_nil {L : List (List κ)} (h : ∀ l ∈ L, l ≠ []) : eraseMissing [] L = L := by
  induction L with
  | nil => rfl
  | cons l L ih =>
      rw [eraseMissing_cons, List.filter_eq_self.mpr (by simp),
        if_neg (by simpa using h l (List.mem_cons_self _ _)),
        ih fun l' hl' => h l' (List.mem_cons_of_mem _ hl')]

/-- Erasing keeps the builder's shape. -/
theorem IsVersionChain.eraseMissing {v : κ → Int} {L : List (List κ)} (h : IsVersionChain v L)
    (M : List κ) : IsVersionChain v (KextManager.eraseMissing M L) := by
  have hsub : ∀ l ∈ KextManager.eraseMissing M L, ∃ l₀ ∈ L, ∀ x ∈ l, x ∈ l₀ := fun l hl => by
    obtain ⟨l₀, hl₀, rfl⟩ := List.mem_map.mp (List.mem_of_mem_filter hl)
    exact ⟨l₀, hl₀, fun x hx => List.mem_of_mem_filter hx⟩
  refine ⟨fun l hl => by simpa using (List.mem_filter.mp hl).2, fun l hl x hx y hy => ?_, ?_⟩
  · obtain ⟨l₀, hl₀, hs⟩ := hsub l hl
    exact h.level_version l₀ hl₀ x (hs x hx) y (hs y hy)
  · refine List.Pairwise.filter _ (List.pairwise_map.mpr (h.descending.imp ?_))
    intro a b hab x hx y hy
    exact hab x (List.mem_of_mem_filter hx) y (List.mem_of_mem_filter hy)

/-- What pass 2 keeps of a level is the level without what it records. -/
theorem filterLevel_eq_filter (ok : κ → Bool) :
    ∀ {l : List κ}, l.Nodup → filterLevel ok l = l.filter (fun x => x ∉ removedLevel ok l)
  | [], _ => rfl
  | n :: ds, hnd => by
      have hn : n ∉ ds := (List.nodup_cons.mp hnd).1
      cases h : ok n
      · have ih := filterLevel_eq_filter ok (List.nodup_cons.mp hnd).2
        simp only [filterLevel, removedLevel, h, Bool.false_eq_true, if_false, ih]
        rw [List.filter_cons_of_neg (by simp)]
        exact List.filter_congr fun x hx => by simp [show x ≠ n from fun e => hn (e ▸ hx)]
      · cases ds with
        | nil => simp [filterLevel, removedLevel, h]
        | cons d rest =>
            have hd : d ∉ rest := (List.nodup_cons.mp (List.nodup_cons.mp hnd).2).1
            simp only [filterLevel, removedLevel, h, if_true]
            rw [List.filter_cons_of_pos (by simp_all), List.filter_cons_of_pos (by simp_all)]
            congr 2
            exact List.filter_congr fun x hx => by simp [hx]

/-- **Pass 2 erases what it records.** On a chain holding each kext once, what
survives is the chain with the recorded kexts erased. -/
theorem filterChain_eq_eraseMissing (ok : κ → Bool) {L : List (List κ)} (hnd : L.flatten.Nodup) :
    filterChain ok L = eraseMissing (removedChain ok L) L := by
  obtain ⟨hlev, hdisj⟩ := List.nodup_flatten.mp hnd
  unfold filterChain eraseMissing
  congr 1
  refine List.map_congr_left fun l hl => ?_
  rw [filterLevel_eq_filter ok (hlev l hl)]
  refine List.filter_congr fun x hx => ?_
  suffices x ∈ removedLevel ok l ↔ x ∈ removedChain ok L by simp [this]
  refine ⟨fun h => List.mem_flatMap.mpr ⟨l, hl, h⟩, fun h => ?_⟩
  obtain ⟨l', hl', hx'⟩ := List.mem_flatMap.mp h
  by_cases e : l = l'
  · exact e ▸ hx'
  · exact absurd ((removedLevel_sublist ok l').subset hx')
      (hdisj.forall (fun _ _ h => h.symm) hl hl' e hx)

end Erase

namespace Manager

variable [DecidableEq ι] [DecidableEq κ]

/-! ### The resolver -/

/-- Modelled from the spec: `KXKextResolveDependencies` (spec §4.2, §6
`resolveDependencies() -> Result`), the external dependency-graph
collaborator; `resolve k` is its result for `k`, and `hasAllDependencies`
records whether it succeeded. -/
def resolveDependencies (resolve : κ → KXKextManagerError) (s : Manager ι κ) (k : κ) :
    Manager ι κ :=
  s.modifyKext k fun r => { r with hasAllDependencies := decide (resolve k = .none) }

/-- Pass 1 over the version chain starting at a pointer: each version node,
then its duplicates. -/
def resolveVersionChain [Fintype κ] (resolve : κ → KXKextManagerError) :
    Nat → Manager ι κ → Option κ → Manager ι κ :=
  walkVersionChain fun s thisKext =>
    let s := s.resolveDependencies resolve thisKext
    walkDuplicateChain (resolveDependencies resolve) (Fintype.card κ) s
      (s.duplicateVersion thisKext)

/-- Pass 2 below a passing version node: check the duplicates past `dupKext`
by peeking ahead, unlinking each failing one from the last kept one. -/
def peekDuplicates : Nat → Manager ι κ → κ → Option κ → Manager ι κ
  | 0, s, _, _ => s
  | _ + 1, s, _, none => s
  | fuel + 1, s, dupKext, some peekDupKext =>
      if !(s.kexts peekDupKext).hasAllDependencies then
        let s := (s.appendMissing peekDupKext).setDuplicateVersionKext dupKext
          (s.duplicateVersion peekDupKext)
        peekDuplicates fuel s dupKext (s.duplicateVersion peekDupKext)
      else peekDuplicates fuel s peekDupKext (s.duplicateVersion peekDupKext)

/-- The `if (dupKext)` block of pass 2 below a kept version node: peek along
its duplicate chain from the first duplicate. -/
def checkDuplicates [Fintype κ] (s : Manager ι κ) (thisKext : κ) : Manager ι κ :=
  match s.duplicateVersion thisKext with
  | none => s
  | some dupKext => peekDuplicates (Fintype.card κ) s dupKext (s.duplicateVersion dupKext)

/-- The slot pass 2 relinks when it drops a version node: the prior link of
`prevKext`, the last version node kept, or with none kept the dictionary entry
of `id`. -/
def slot (s : Manager ι κ) (id : ι) : Option κ → Option κ
  | some p => s.priorVersion p
  | none => s.candidateKexts.lookup id

/-- Point the slot of `prevKext` at `k`: `_KXKextSetPriorVersionKext(prevKext, k)`,
or `CFDictionarySetValue` of `id`, or `CFDictionaryRemoveValue` when there is
no `k`. -/
def setSlot (s : Manager ι κ) (id : ι) : Option κ → Option κ → Manager ι κ
  | some p, k => s.setPriorVersionKext p k
  | none, some k => { s with candidateKexts := s.candidateKexts.insert id k }
  | none, none => { s with candidateKexts := s.candidateKexts.erase id }

/-- Pass 2 over the chain of identifier `id`, from `thisKext` with `prevKext`
the last version node kept. -/
def removeKextsMissingDependencies [Fintype κ] (id : ι) :
    Nat → Manager ι κ → Option κ → Option κ → Manager ι κ
  | 0, s, _, _ => s
  | _ + 1, s, _, none => s
  | fuel + 1, s, prevKext, some thisKext =>
      let nextKext := s.priorVersion thisKext
      let dupKext := s.duplicateVersion thisKext
      if !(s.kexts thisKext).hasAllDependencies then
        let s := s.appendMissing thisKext
        match dupKext with
        | none => removeKextsMissingDependencies id fuel (s.setSlot id prevKext nextKext)
            prevKext nextKext
        | some d =>
            let s := (s.setSlot id prevKext (some d)).setPriorVersionKext d nextKext
            removeKextsMissingDependencies id fuel s prevKext (some d)
      else
        removeKextsMissingDependencies id fuel (s.checkDuplicates thisKext) (some thisKext) nextKext

/-- The kexts the peek loop examines as `peekDupKext`, in order; none when its
fuel runs out before it ends. -/
def peekDuplicatesExamined : Nat → Manager ι κ → κ → Option κ → Option (List κ)
  | _, _, _, none => some []
  | 0, _, _, some _ => none
  | fuel + 1, s, dupKext, some peekDupKext =>
      (if !(s.kexts peekDupKext).hasAllDependencies then
        let s := (s.appendMissing peekDupKext).setDuplicateVersionKext dupKext
          (s.duplicateVersion peekDupKext)
        peekDuplicatesExamined fuel s dupKext (s.duplicateVersion peekDupKext)
      else peekDuplicatesExamined fuel s peekDupKext (s.duplicateVersion peekDupKext)).map
        (peekDupKext :: ·)

/-- The kexts `checkDuplicates` examines. -/
def checkDuplicatesExamined [Fintype κ] (s : Manager ι κ) (thisKext : κ) : Option (List κ) :=
  match s.duplicateVersion thisKext with
  | none => some []
  | some dupKext => peekDuplicatesExamined (Fintype.card κ) s dupKext (s.duplicateVersion dupKext)

/-- The kexts pass 2 examines over the chain of `id`, as `thisKext` or as
`peekDupKext`, in order, along the same states as
`removeKextsMissingDependencies`; none when the fuel runs out before the walk
ends. -/
def removeKextsMissingDependenciesExamined [Fintype κ] (id : ι) :
    Nat → Manager ι κ → Option κ → Option κ → Option (List κ)
  | _, _, _, none => some []
  | 0, _, _, some _ => none
  | fuel + 1, s, prevKext, some thisKext =>
      let nextKext := s.priorVersion thisKext
      let dupKext := s.duplicateVersion thisKext
      (if !(s.kexts thisKext).hasAllDependencies then
        let s := s.appendMissing thisKext
        match dupKext with
        | none => removeKextsMissingDependenciesExamined id fuel (s.setSlot id prevKext nextKext)
            prevKext nextKext
        | some d =>
            let s := (s.setSlot id prevKext (some d)).setPriorVersionKext d nextKext
            removeKextsMissingDependenciesExamined id fuel s prevKext (some d)
      else
        (checkDuplicatesExamined s thisKext).bind fun peeked =>
          (removeKextsMissingDependenciesExamined id fuel (s.checkDuplicates thisKext)
            (some thisKext) nextKext).map (peeked ++ ·)).map (thisKext :: ·)

/-- Modelled from the spec: `KXKextRepositoryResolveBadKextDependencies`
(spec §4.2, full tests): the bad kexts of the repository resolve their
dependencies, for reporting only. -/
def resolveBadKextDependencies (resolve : κ → KXKextManagerError) (s : Manager ι κ)
    (r : Repository κ) : Manager ι κ :=
  r.badKexts.foldl (resolveDependencies resolve) s

/-- The first loop of `KXKextManagerResolveAllKextDependencies` over the
snapshot `entries` of the dictionary (pass 1). -/
def resolveCandidateChains [Fintype κ] (resolve : κ → KXKextManagerError)
    (entries : List (Σ _ : ι, κ)) (s : Manager ι κ) : Manager ι κ :=
  entries.foldl (fun s e => resolveVersionChain resolve (Fintype.card κ) s (some e.2)) s

/-- The second loop of `KXKextManagerResolveAllKextDependencies` over the
snapshot `entries` of the dictionary (pass 2). -/
def removeCandidatesMissingDependencies [Fintype κ] (entries : List (Σ _ : ι, κ))
    (s : Manager ι κ) : Manager ι κ :=
  entries.foldl (fun s e => removeKextsMissingDependencies e.1 (Fintype.card κ) s none (some e.2)) s

/-- `KXKextManagerResolveAllKextDependencies`.  `resolve` gives the result of
`KXKextResolveDependencies` for each kext, `mallocOk` whether the two
snapshot arrays could be allocated. -/
def resolveAllKextDependencies [Fintype κ] (resolve : κ → KXKextManagerError) (mallocOk : Bool)
    (s : Manager ι κ) : Manager ι κ :=
  let entries := s.candidateKexts.entries
  if !entries.isEmpty && !mallocOk then s
  else
    let s := removeCandidatesMissingDependencies entries (resolveCandidateChains resolve entries s)
    if s.performsFullTests then s.repositoryList.list.foldl (resolveBadKextDependencies resolve) s
    else s

/-! ### Pass 2 realises the abstract filter -/

/-- The manager with its duplicate links and missing-dependency list
forgotten: what the peek loop leaves alone. -/
def withoutDuplicates (s : Manager ι κ) : Manager ι κ :=
  { s with duplicateVersion := fun _ => none, kextsWithMissingDependencies := [] }

/-- The manager with its chain structure and missing-dependency list
forgotten: what pass 2 leaves alone. -/
def withoutStructure (s : Manager ι κ) : Manager ι κ :=
  { s.withoutChains with kextsWithMissingDependencies := [] }

section SlotSimp

variable (s : Manager ι κ) (id : ι) (prevKext k : Option κ)

@[simp] theorem slot_setSlot : (s.setSlot id prevKext k).slot id prevKext = k := by
  rcases prevKext with _ | p <;> rcases k with _ | k <;>
    simp [slot, setSlot, AList.lookup_insert, AList.lookup_erase]

@[simp] theorem setSlot_duplicateVersion :
    (s.setSlot id prevKext k).duplicateVersion = s.duplicateVersion := by
  rcases prevKext with _ | p <;> rcases k with _ | k <;> rfl

@[simp] theorem setSlot_kexts : (s.setSlot id prevKext k).kexts = s.kexts := by
  rcases prevKext with _ | p <;> rcases k with _ | k <;> rfl

@[simp] theorem setSlot_kextsWithMissingDependencies :
    (s.setSlot id prevKext k).kextsWithMissingDependencies = s.kextsWithMissingDependencies := by
  rcases prevKext with _ | p <;> rcases k with _ | k <;> rfl

@[simp] theorem setSlot_withoutStructure :
    (s.setSlot id prevKext k).withoutStructure = s.withoutStructure := by
  rcases prevKext with _ | p <;> rcases k with _ | k <;> rfl

theorem setSlot_priorVersion_of_ne {m : κ} (h : prevKext ≠ some m) :
    (s.setSlot id prevKext k).priorVersion m = s.priorVersion m := by
  rcases prevKext with _ | p
  · rcases k with _ | k <;> rfl
  · simp [setSlot, show m ≠ p from fun e => h (e ▸ rfl)]

theorem setSlot_lookup_of_ne {I : ι} (h : I ≠ id ∨ prevKext ≠ none) :
    (s.setSlot id prevKext k).candidateKexts.lookup I = s.candidateKexts.lookup I := by
  rcases prevKext with _ | p
  · have hI : I ≠ id := by simpa using h
    rcases k with _ | k
    · exact AList.lookup_erase_ne hI
    · exact AList.lookup_insert_ne hI
  · rfl

omit [DecidableEq ι] [DecidableEq κ] in
@[simp] theorem withoutStructure_appendMissing (m : κ) :
    (s.appendMissing m).withoutStructure = s.withoutStructure := rfl

omit [DecidableEq ι] in
@[simp] theorem withoutStructure_setPriorVersionKext (m : κ) :
    (s.setPriorVersionKext m k).withoutStructure = s.withoutStructure := rfl

omit [DecidableEq ι] [DecidableEq κ] in
@[simp] theorem withoutDuplicates_appendMissing (m : κ) :
    (s.appendMissing m).withoutDuplicates = s.withoutDuplicates := rfl

omit [DecidableEq ι] in
@[simp] theorem withoutDuplicates_setDuplicateVersionKext (m : κ) :
    (s.setDuplicateVersionKext m k).withoutDuplicates = s.withoutDuplicates := rfl

end SlotSimp

omit [DecidableEq ι] [DecidableEq κ] in
theorem withoutStructure_eq_of_withoutDuplicates {s s' : Manager ι κ}
    (h : s'.withoutDuplicates = s.withoutDuplicates) : s'.withoutStructure = s.withoutStructure := by
  have := congrArg withoutStructure h
  exact this

/-- A relinking of the duplicate chain `ds` below `dupKext`, from `s` to `s'`:
the chain becomes `kept`, `removed` is recorded, and only duplicate links
inside the chain are written. -/
structure RelinksDuplicates (dupKext : κ) (ds kept removed : List κ) (s s' : Manager ι κ) :
    Prop where
  dupRep : DupRep s'.duplicateVersion dupKext kept
  missing : s'.kextsWithMissingDependencies = s.kextsWithMissingDependencies ++ removed
  dup_frame : ∀ m ∉ dupKext :: ds, s'.duplicateVersion m = s.duplicateVersion m
  rest : s'.withoutDuplicates = s.withoutDuplicates

omit [DecidableEq ι] in
/-- **The peek loop**, given as much fuel as there are duplicates, filters the
duplicates it reaches, examining each of them once. -/
theorem peekDuplicates_walk (ok : κ → Bool) {ds : List κ} :
    ∀ {fuel : Nat} {s : Manager ι κ} {dupKext : κ},
      (∀ x, (s.kexts x).hasAllDependencies = ok x) → DupRep s.duplicateVersion dupKext ds →
      (dupKext :: ds).Nodup → ds.length ≤ fuel →
      RelinksDuplicates dupKext ds (ds.filter ok) (ds.filter (fun x => !ok x)) s
        (peekDuplicates fuel s dupKext (s.duplicateVersion dupKext)) ∧
      peekDuplicatesExamined fuel s dupKext (s.duplicateVersion dupKext) = some ds := by
  induction ds with
  | nil =>
      intro fuel s dupKext _ hd _ _
      have hd : s.duplicateVersion dupKext = none := hd
      have : peekDuplicates fuel s dupKext none = s := by cases fuel <;> rfl
      rw [hd, this]
      exact ⟨⟨hd, by simp, fun _ _ => rfl, rfl⟩, by cases fuel <;> rfl⟩
  | cons x xs ih =>
      intro fuel s dupKext hok hd hnd hf
      obtain ⟨hdx, hxs⟩ := hd
      obtain ⟨f, rfl⟩ : ∃ f, fuel = f + 1 := ⟨fuel - 1, by simp at hf; omega⟩
      have hn : dupKext ∉ x :: xs := (List.nodup_cons.mp hnd).1
      have hx : (x :: xs).Nodup := (List.nodup_cons.mp hnd).2
      have hf' : xs.length ≤ f := by simpa using hf
      rw [hdx]
      cases hxok : ok x
      · -- `x` lacks dependencies: recorded, and unlinked from `dupKext`
        have hne : ∀ m ∈ xs, m ≠ dupKext := fun m hm e => hn (e ▸ List.mem_cons_of_mem _ hm)
        have hxd : x ≠ dupKext := fun e => hn (e ▸ List.mem_cons_self _ _)
        set s' := (s.appendMissing x).setDuplicateVersionKext dupKext (s.duplicateVersion x)
        have hstep : peekDuplicates (f + 1) s dupKext (some x) =
            peekDuplicates f s' dupKext (s.duplicateVersion x) := by
          simp only [peekDuplicates, hok, hxok, Bool.not_false, if_true]
          congr 1
          simp [s', hxd]
        have hstep' : peekDuplicatesExamined (f + 1) s dupKext (some x) =
            (peekDuplicatesExamined f s' dupKext (s.duplicateVersion x)).map (x :: ·) := by
          simp only [peekDuplicatesExamined, hok, hxok, Bool.not_false, if_true]
          congr 2
          simp [s', hxd]
        have h₁ : s'.duplicateVersion dupKext = s.duplicateVersion x := by simp [s']
        have R := @ih f s' dupKext hok (hxs.rehead h₁ fun m hm => by simp [s', hne m hm])
          (List.nodup_cons.mpr ⟨fun h => hn (List.mem_cons_of_mem _ h), (List.nodup_cons.mp hx).2⟩)
          hf'
        rw [h₁] at R
        rw [hstep, hstep', R.2]
        refine ⟨⟨by simpa [hxok] using R.1.dupRep, by simp [R.1.missing, s', hxok],
          fun m hm => ?_, R.1.rest.trans (by simp [s'])⟩, rfl⟩
        have hm' : m ≠ dupKext := fun e => hm (e ▸ List.mem_cons_self _ _)
        rw [R.1.dup_frame m fun h =>
          hm (List.mem_cons.mpr ((List.mem_cons.mp h).imp id (List.mem_cons_of_mem x)))]
        simp [s', hm']
      · -- `x` is kept and becomes the kext to peek past
        have hstep : peekDuplicates (f + 1) s dupKext (some x) =
            peekDuplicates f s x (s.duplicateVersion x) := by
          simp only [peekDuplicates, hok, hxok, Bool.not_true]; rfl
        have hstep' : peekDuplicatesExamined (f + 1) s dupKext (some x) =
            (peekDuplicatesExamined f s x (s.duplicateVersion x)).map (x :: ·) := by
          simp only [peekDuplicatesExamined, hok, hxok, Bool.not_true]; rfl
        have R := ih hok hxs hx hf'
        rw [hstep, hstep', R.2]
        refine ⟨⟨?_, by simp [R.1.missing, hxok], fun m hm => R.1.dup_frame m fun h => hm (List.mem_cons_of_mem _ h),
          R.1.rest⟩, rfl⟩
        rw [List.filter_cons_of_pos hxok]
        exact ⟨(R.1.dup_frame dupKext hn).trans hdx, R.1.dupRep⟩

omit [DecidableEq ι] in
/-- **The peek loop filters the duplicates it reaches**, given as much fuel as
there are duplicates. -/
theorem peekDuplicates_spec (ok : κ → Bool) {ds : List κ} :
    ∀ {fuel : Nat} {s : Manager ι κ} {dupKext : κ},
      (∀ x, (s.kexts x).hasAllDependencies = ok x) → DupRep s.duplicateVersion dupKext ds →
      (dupKext :: ds).Nodup → ds.length ≤ fuel →
      RelinksDuplicates dupKext ds (ds.filter ok) (ds.filter (fun x => !ok x)) s
        (peekDuplicates fuel s dupKext (s.duplicateVersion dupKext)) :=
  fun hok hd hnd hf => (peekDuplicates_walk ok hok hd hnd hf).1

section Views

variable {s s' : Manager ι κ}

omit [DecidableEq ι] [DecidableEq κ] in
theorem priorVersion_eq_of_withoutDuplicates (h : s'.withoutDuplicates = s.withoutDuplicates) :
    s'.priorVersion = s.priorVersion := by
  have := congrArg priorVersion h; exact this

omit [DecidableEq ι] [DecidableEq κ] in
theorem candidateKexts_eq_of_withoutDuplicates (h : s'.withoutDuplicates = s.withoutDuplicates) :
    s'.candidateKexts = s.candidateKexts := by
  have := congrArg candidateKexts h; exact this

omit [DecidableEq ι] [DecidableEq κ] in
theorem kexts_eq_of_withoutDuplicates (h : s'.withoutDuplicates = s.withoutDuplicates) :
    s'.kexts = s.kexts := by
  have := congrArg kexts h; exact this

omit [DecidableEq κ] in
theorem slot_eq_of_withoutDuplicates (h : s'.withoutDuplicates = s.withoutDuplicates) (id : ι)
    (prevKext : Option κ) : s'.slot id prevKext = s.slot id prevKext := by
  rcases prevKext with _ | p
  · exact congrArg (AList.lookup id) (candidateKexts_eq_of_withoutDuplicates h)
  · exact congrFun (priorVersion_eq_of_withoutDuplicates h) p

theorem slot_setPriorVersionKext_of_ne (id : ι) {prevKext : Option κ} {m : κ} (k : Option κ)
    (h : prevKext ≠ some m) : (s.setPriorVersionKext m k).slot id prevKext = s.slot id prevKext := by
  rcases prevKext with _ | p
  · rfl
  · simp [slot, show p ≠ m from fun e => h (e ▸ rfl)]

end Views

omit [DecidableEq ι] in
/-- **The peek phase below a kept version node** relinks its duplicate chain
to what pass 2 keeps of the level, and records what it drops. -/
theorem checkDuplicates_spec [Fintype κ] (ok : κ → Bool) {s : Manager ι κ} {n : κ} {ds : List κ}
    (hok : ∀ x, (s.kexts x).hasAllDependencies = ok x) (hn : ok n = true)
    (hd : DupRep s.duplicateVersion n ds) (hnd : (n :: ds).Nodup) :
    RelinksDuplicates n ds (filterLevel ok (n :: ds)).tail (removedLevel ok (n :: ds)) s
      (s.checkDuplicates n) := by
  cases ds with
  | nil =>
      have hd : s.duplicateVersion n = none := hd
      simp only [checkDuplicates, hd, filterLevel, removedLevel, hn, if_true]
      exact ⟨hd, by simp, fun _ _ => rfl, rfl⟩
  | cons d rest =>
      obtain ⟨hnd', hrest⟩ := hd
      have hn' : n ∉ d :: rest := (List.nodup_cons.mp hnd).1
      have P := peekDuplicates_spec ok hok hrest (List.nodup_cons.mp hnd).2
        (le_trans (by simp) (List.nodup_cons.mp hnd).2.length_le_card)
      simp only [checkDuplicates, hnd', filterLevel, removedLevel, hn, if_true, List.tail_cons]
      exact ⟨⟨(P.dup_frame n hn').trans hnd', P.dupRep⟩, P.missing,
        fun m hm => P.dup_frame m (by simp_all), P.rest⟩

omit [DecidableEq ι] in
/-- Below a passing version node the peek examines its duplicates but the first. -/
theorem checkDuplicatesExamined_eq [Fintype κ] (ok : κ → Bool) {s : Manager ι κ} {n : κ}
    {ds : List κ} (hok : ∀ x, (s.kexts x).hasAllDependencies = ok x)
    (hd : DupRep s.duplicateVersion n ds) (hnd : (n :: ds).Nodup) :
    s.checkDuplicatesExamined n = some ds.tail := by
  cases ds with
  | nil =>
      have hd : s.duplicateVersion n = none := hd
      simp [checkDuplicatesExamined, hd]
  | cons d rest =>
      obtain ⟨hnd', hrest⟩ := hd
      simp only [checkDuplicatesExamined, hnd', List.tail_cons]
      exact (peekDuplicates_walk ok hok hrest (List.nodup_cons.mp hnd).2
        (le_trans (by simp) (List.nodup_cons.mp hnd).2.length_le_card)).2

/-- What pass 2 over the chain `R` hanging from the slot of `prevKext` does,
from `s` to `s'`: the chain becomes what pass 2 keeps of it, what it drops is
recorded in order, and only the links of the chain, the slot and the dictionary
entry of `id` are written. -/
structure RemovesMissing (ok : κ → Bool) (id : ι) (prevKext : Option κ) (R : List (List κ))
    (s s' : Manager ι κ) : Prop where
  chain : ChainRep s'.priorVersion s'.duplicateVersion (s'.slot id prevKext) (filterChain ok R)
  missing : s'.kextsWithMissingDependencies =
    s.kextsWithMissingDependencies ++ removedChain ok R
  prior_frame : ∀ m ∉ R.flatten, prevKext ≠ some m → s'.priorVersion m = s.priorVersion m
  dup_frame : ∀ m ∉ R.flatten, s'.duplicateVersion m = s.duplicateVersion m
  lookup_frame : ∀ I, I ≠ id ∨ prevKext ≠ none →
    s'.candidateKexts.lookup I = s.candidateKexts.lookup I
  rest : s'.withoutStructure = s.withoutStructure

namespace RemovesMissing

variable {ok : κ → Bool} {id : ι} {prevKext : Option κ} {n : κ} {ds R' : List κ}
  {R : List (List κ)} {s s₁ s' : Manager ι κ}

omit [DecidableEq κ] in
theorem nil (hc : s.slot id prevKext = none) : RemovesMissing ok id prevKext [] s s :=
  ⟨hc, by simp [removedChain], fun _ _ _ => rfl, fun _ _ => rfl, fun _ _ => rfl, rfl⟩

/-- A failing version node without duplicates is bypassed. -/
theorem drop_node (hn : ok n = false)
    (h : RemovesMissing ok id prevKext R
      ((s.appendMissing n).setSlot id prevKext (s.priorVersion n)) s') :
    RemovesMissing ok id prevKext ([n] :: R) s s' where
  chain := by simpa [filterChain, filterLevel, hn] using h.chain
  missing := by simp [h.missing, removedChain, removedLevel, hn]
  prior_frame m hm hp := by
    rw [h.prior_frame m (by simp_all) hp, setSlot_priorVersion_of_ne _ _ _ _ hp]; rfl
  dup_frame m hm := by rw [h.dup_frame m (by simp_all)]; simp
  lookup_frame I hI := by rw [h.lookup_frame I hI, setSlot_lookup_of_ne _ _ _ _ hI]; rfl
  rest := h.rest.trans (by simp)

/-- A failing version node with duplicates is replaced by its first
duplicate, which is checked next. -/
theorem promote_duplicate {d : κ} {ds : List κ} (hn : ok n = false)
    (h : RemovesMissing ok id prevKext ((d :: ds) :: R)
      (((s.appendMissing n).setSlot id prevKext (some d)).setPriorVersionKext d
        (s.priorVersion n)) s') :
    RemovesMissing ok id prevKext ((n :: d :: ds) :: R) s s' where
  chain := by simpa [filterChain, filterLevel, hn] using h.chain
  missing := by simp [h.missing, removedChain, removedLevel, hn]
  prior_frame m hm hp := by
    have hmd : m ≠ d := by rintro rfl; simp at hm
    rw [h.prior_frame m (by simp_all) hp]
    simp [hmd, setSlot_priorVersion_of_ne _ _ _ _ hp]
  dup_frame m hm := by rw [h.dup_frame m (by simp_all)]; simp
  lookup_frame I hI := by rw [h.lookup_frame I hI]; simp [setSlot_lookup_of_ne _ _ _ _ hI]
  rest := h.rest.trans (by simp)

omit [DecidableEq κ] in
/-- A passing version node is kept, with its duplicate chain filtered, and the
walk goes on below it. -/
theorem keep_node {ds : List κ} (hn : ok n = true) (hslot : s.slot id prevKext = some n)
    (hnp : ∀ x ∈ ds, s.priorVersion x = none) (hnd : ((n :: ds) :: R).flatten.Nodup)
    (hprev : ∀ p, prevKext = some p → p ∉ ((n :: ds) :: R).flatten)
    (h₁ : RelinksDuplicates n ds (filterLevel ok (n :: ds)).tail (removedLevel ok (n :: ds)) s s₁)
    (h : RemovesMissing ok id (some n) R s₁ s') :
    RemovesMissing ok id prevKext ((n :: ds) :: R) s s' := by
  rw [List.flatten_cons] at hnd
  obtain ⟨hlev, -, hdisj⟩ := List.nodup_append.mp hnd
  have hnR : ∀ m ∈ n :: ds, m ∉ R.flatten := fun m hm hmR => hdisj hm hmR
  have hp₁ := priorVersion_eq_of_withoutDuplicates h₁.rest
  have hsub : List.Sublist (filterLevel ok (n :: ds)).tail ds :=
    List.cons_sublist_cons.mp (filterLevel_of_ok ok ds hn ▸ filterLevel_sublist ok (n :: ds))
  have hkept : ∀ m ∈ n :: (filterLevel ok (n :: ds)).tail, m ∈ n :: ds :=
    fun m hm => (hsub.cons₂ n).subset hm
  have hslot' : s'.slot id prevKext = some n := by
    rw [← hslot, ← slot_eq_of_withoutDuplicates h₁.rest]
    rcases prevKext with _ | p
    · exact h.lookup_frame id (Or.inr (by simp))
    · have hp : p ∉ (n :: ds) ++ R.flatten := by simpa using hprev p rfl
      exact h.prior_frame p (fun hpR => hp (List.mem_append_right _ hpR))
        (fun e => hp (by simp [Option.some.inj e]))
  refine ⟨?_, ?_, fun m hm hpm => ?_, fun m hm => ?_, fun I _ => ?_, ?_⟩
  · -- the kept level, then the rest of the chain
    unfold filterChain
    rw [List.map_cons, filterLevel_of_ok ok ds hn, List.filter_cons_of_pos (by simp)]
    refine ⟨hslot', h₁.dupRep.frame fun m hm => h.dup_frame m (hnR m (hkept m hm)),
      fun x hx => ?_, h.chain⟩
    have hx' : x ∈ ds := hsub.subset hx
    have hxn : x ≠ n := fun e => (List.nodup_cons.mp hlev).1 (e ▸ hx')
    rw [h.prior_frame x (hnR x (List.mem_cons_of_mem _ hx')) (by simpa using hxn.symm), hp₁]
    exact hnp x hx'
  · rw [h.missing, h₁.missing]; simp [removedChain]
  · have hm' : m ∉ (n :: ds) ++ R.flatten := by simpa using hm
    rw [h.prior_frame m (fun h' => hm' (List.mem_append_right _ h'))
      (fun e => hm' (by simp [Option.some.inj e])), hp₁]
  · have hm' : m ∉ (n :: ds) ++ R.flatten := by simpa using hm
    rw [h.dup_frame m (fun h' => hm' (List.mem_append_right _ h')),
      h₁.dup_frame m (fun h' => hm' (List.mem_append_left _ h'))]
  · rw [h.lookup_frame I (Or.inr (by simp)), candidateKexts_eq_of_withoutDuplicates h₁.rest]
  · exact h.rest.trans (withoutStructure_eq_of_withoutDuplicates h₁.rest)

end RemovesMissing

/-- **Pass 2 over one chain, walked.**  Given as much fuel as the chain has
kexts, the walk from the slot of `prevKext` leaves the chain that pass 2 keeps
(`filterChain`), records what it drops (`removedChain`) in order, writes no
link outside the chain but the slot, and ends before its fuel runs out, having
examined the kexts of `examinedChain`. -/
theorem removeKextsMissingDependencies_walk [Fintype κ] (id : ι) (ok : κ → Bool) :
    ∀ (fuel : Nat) {s : Manager ι κ} {prevKext : Option κ} {R : List (List κ)},
      (∀ x, (s.kexts x).hasAllDependencies = ok x) →
      ChainRep s.priorVersion s.duplicateVersion (s.slot id prevKext) R →
      R.flatten.Nodup → (∀ p, prevKext = some p → p ∉ R.flatten) → R.flatten.length ≤ fuel →
      RemovesMissing ok id prevKext R s
        (removeKextsMissingDependencies id fuel s prevKext (s.slot id prevKext)) ∧
      removeKextsMissingDependenciesExamined id fuel s prevKext (s.slot id prevKext) =
        some (examinedChain ok R)
  | fuel, s, prevKext, [], _, hc, _, _, _ => by
      have hc : s.slot id prevKext = none := hc
      have : removeKextsMissingDependencies id fuel s prevKext none = s := by cases fuel <;> rfl
      rw [hc, this]
      exact ⟨.nil hc, by cases fuel <;> rfl⟩
  | _, _, _, [] :: _, _, hc, _, _, _ => hc.elim
  | 0, _, _, (_ :: _) :: _, _, _, _, _, hf => absurd hf (by simp)
  | f + 1, s, prevKext, (n :: ds) :: R, hok, ⟨hh, hd, hnp, hR⟩, hnd, hprev, hf => by
      have hnd' : (n :: ds ++ R.flatten).Nodup := by simpa using hnd
      have hp : ∀ m ∈ (n :: ds) ++ R.flatten, prevKext ≠ some m := fun m hm e =>
        hprev m e (by simpa using hm)
      have hRnd : R.flatten.Nodup := (List.nodup_append.mp hnd').2.1
      have hRp : ∀ m ∈ R.flatten, prevKext ≠ some m := fun m hm => hp m (List.mem_append_right _ hm)
      have hfR : R.flatten.length ≤ f := by
        rw [List.flatten_cons, List.length_append, List.length_cons] at hf; omega
      rw [hh]
      cases hn : ok n
      · cases ds with
        | nil =>
            -- no duplicate: bypass `n`
            have hd : s.duplicateVersion n = none := hd
            have hstep : removeKextsMissingDependencies id (f + 1) s prevKext (some n) =
                removeKextsMissingDependencies id f
                  ((s.appendMissing n).setSlot id prevKext (s.priorVersion n)) prevKext
                  (((s.appendMissing n).setSlot id prevKext (s.priorVersion n)).slot id prevKext) := by
              rw [slot_setSlot]
              simp only [removeKextsMissingDependencies, hok, hn, hd, Bool.not_false, if_true]
            have hstep' : removeKextsMissingDependenciesExamined id (f + 1) s prevKext (some n) =
                (removeKextsMissingDependenciesExamined id f
                  ((s.appendMissing n).setSlot id prevKext (s.priorVersion n)) prevKext
                  (((s.appendMissing n).setSlot id prevKext (s.priorVersion n)).slot id
                    prevKext)).map (n :: ·) := by
              rw [slot_setSlot]
              simp only [removeKextsMissingDependenciesExamined, hok, hn, hd, Bool.not_false,
                if_true]
            have hc₁ : ChainRep ((s.appendMissing n).setSlot id prevKext (s.priorVersion n)).priorVersion
                ((s.appendMissing n).setSlot id prevKext (s.priorVersion n)).duplicateVersion
                (((s.appendMissing n).setSlot id prevKext (s.priorVersion n)).slot id prevKext) R := by
              rw [slot_setSlot]
              exact hR.frame (fun m hm => setSlot_priorVersion_of_ne _ _ _ _ (hRp m hm))
                (fun m _ => by simp)
            have IH := removeKextsMissingDependencies_walk id ok f (fun x => by simp [hok]) hc₁ hRnd
              (fun p e hpR => hRp p hpR e) (by simpa using hfR)
            rw [hstep, hstep', IH.2]
            exact ⟨RemovesMissing.drop_node hn IH.1, by simp [examinedChain, examinedLevel, hn]⟩
        | cons d ds =>
            -- the first duplicate takes the place of `n`
            obtain ⟨hnd₁, hds⟩ := hd
            have hd₀ : d ∈ (n :: d :: ds) ++ R.flatten := by simp
            set s₂ := ((s.appendMissing n).setSlot id prevKext (some d)).setPriorVersionKext d
              (s.priorVersion n) with hs₂
            have hslot₂ : s₂.slot id prevKext = some d := by
              rw [hs₂, slot_setPriorVersionKext_of_ne _ _ (hp d hd₀), slot_setSlot]
            have hstep : removeKextsMissingDependencies id (f + 1) s prevKext (some n) =
                removeKextsMissingDependencies id f s₂ prevKext (s₂.slot id prevKext) := by
              rw [hslot₂, hs₂]
              simp only [removeKextsMissingDependencies, hok, hn, hnd₁, Bool.not_false, if_true]
            have hnd₂ : (d :: ds ++ R.flatten).Nodup := (List.nodup_cons.mp hnd').2
            have hdR : ∀ m ∈ R.flatten, m ≠ d := fun m hm e =>
              List.disjoint_of_nodup_append hnd₂ (List.mem_cons_self d ds) (e ▸ hm)
            have hprior₂ : ∀ m, m ≠ d → prevKext ≠ some m →
                s₂.priorVersion m = s.priorVersion m := fun m hmd hpm => by
              simp [hs₂, hmd, setSlot_priorVersion_of_ne _ _ _ _ hpm]
            have hc₂ : ChainRep s₂.priorVersion s₂.duplicateVersion (s₂.slot id prevKext)
                ((d :: ds) :: R) := by
              refine ⟨hslot₂, hds.frame fun m _ => by simp [hs₂], fun x hx => ?_, ?_⟩
              · have hxd : x ≠ d := fun e =>
                  (List.nodup_cons.mp (List.nodup_append.mp hnd₂).1).1 (e ▸ hx)
                rw [hprior₂ x hxd (hp x (by simp [hx]))]
                exact hnp x (List.mem_cons_of_mem _ hx)
              · rw [show s₂.priorVersion d = s.priorVersion n by simp [hs₂]]
                exact hR.frame (fun m hm => hprior₂ m (hdR m hm) (hRp m hm))
                  (fun m _ => by simp [hs₂])
            have hstep' : removeKextsMissingDependenciesExamined id (f + 1) s prevKext (some n) =
                (removeKextsMissingDependenciesExamined id f s₂ prevKext
                  (s₂.slot id prevKext)).map (n :: ·) := by
              rw [hslot₂, hs₂]
              simp only [removeKextsMissingDependenciesExamined, hok, hn, hnd₁, Bool.not_false,
                if_true]
            have IH := removeKextsMissingDependencies_walk id ok f (fun x => by simp [hs₂, hok])
              hc₂ (by simpa using hnd₂)
              (fun p e hpR => hp p (List.mem_cons_of_mem n (by rwa [List.flatten_cons] at hpR)) e)
              (by simp at hf ⊢; omega)
            rw [hstep, hstep', IH.2]
            exact ⟨RemovesMissing.promote_duplicate hn IH.1,
              by simp [examinedChain, examinedLevel, hn]⟩
      · -- `n` is kept: peek along its duplicates, then go on below it
        have h₁ := checkDuplicates_spec ok hok hn hd (List.nodup_append.mp hnd').1
        have hp₁ := priorVersion_eq_of_withoutDuplicates h₁.rest
        have hstep : removeKextsMissingDependencies id (f + 1) s prevKext (some n) =
            removeKextsMissingDependencies id f (s.checkDuplicates n) (some n)
              ((s.checkDuplicates n).slot id (some n)) := by
          simp only [removeKextsMissingDependencies, hok, hn, Bool.not_true, slot, hp₁]
          rfl
        have hstep' : removeKextsMissingDependenciesExamined id (f + 1) s prevKext (some n) =
            ((s.checkDuplicatesExamined n).bind fun peeked =>
              (removeKextsMissingDependenciesExamined id f (s.checkDuplicates n) (some n)
                ((s.checkDuplicates n).slot id (some n))).map (peeked ++ ·)).map (n :: ·) := by
          simp only [removeKextsMissingDependenciesExamined, hok, hn, Bool.not_true, slot, hp₁]
          rfl
        have hdisj := (List.nodup_append.mp hnd').2.2
        have hc₃ : ChainRep (s.checkDuplicates n).priorVersion (s.checkDuplicates n).duplicateVersion
            ((s.checkDuplicates n).slot id (some n)) R := by
          simp only [slot, hp₁]
          exact hR.frame (fun _ _ => rfl) (fun m hm => h₁.dup_frame m fun hm' => hdisj hm' hm)
        have IH := removeKextsMissingDependencies_walk id ok f
          (by rwa [kexts_eq_of_withoutDuplicates h₁.rest]) hc₃ hRnd
          (fun p e hpR => by cases e; exact hdisj (List.mem_cons_self _ _) hpR) hfR
        rw [hstep, hstep', checkDuplicatesExamined_eq ok hok hd (List.nodup_append.mp hnd').1,
          Option.some_bind, IH.2]
        exact ⟨RemovesMissing.keep_node hn hh hnp hnd hprev h₁ IH.1,
          by simp [examinedChain, examinedLevel, hn]⟩

/-- **Pass 2 over one chain.**  Given as much fuel as the chain has kexts, the
walk from the slot of `prevKext` leaves the chain that pass 2 keeps
(`filterChain`), records what it drops (`removedChain`) in order, and writes no
link outside the chain but the slot. -/
theorem removeKextsMissingDependencies_spec [Fintype κ] (id : ι) (ok : κ → Bool) :
    ∀ (fuel : Nat) {s : Manager ι κ} {prevKext : Option κ} {R : List (List κ)},
      (∀ x, (s.kexts x).hasAllDependencies = ok x) →
      ChainRep s.priorVersion s.duplicateVersion (s.slot id prevKext) R →
      R.flatten.Nodup → (∀ p, prevKext = some p → p ∉ R.flatten) → R.flatten.length ≤ fuel →
      RemovesMissing ok id prevKext R s
        (removeKextsMissingDependencies id fuel s prevKext (s.slot id prevKext)) :=
  fun fuel _ _ _ hok hc hnd hprev hf =>
    (removeKextsMissingDependencies_walk id ok fuel hok hc hnd hprev hf).1

/-- **Pass 2 ends and examines each kext once.**  On a built structure, whatever
`hasAllDependencies` its kexts carry, the walk of pass 2 over the chain of `I`
ends before its fuel, the number of kexts, runs out, and the kexts it examines,
as `thisKext` or as `peekDupKext`, are kexts of that chain, none twice. -/
theorem removeKextsMissingDependencies_examines_once [Fintype κ] {s : Manager ι κ} (hb : Built s)
    (I : ι) :
    ∃ xs, removeKextsMissingDependenciesExamined I (Fintype.card κ) s none
        (s.candidateKexts.lookup I) = some xs ∧ xs.Nodup ∧ ∀ x ∈ xs, Reaches s I x := by
  obtain ⟨L, hc, hnd⟩ := hb.chains I
  have hw := removeKextsMissingDependencies_walk I (fun x => (s.kexts x).hasAllDependencies)
    (Fintype.card κ) (fun _ => rfl) (show ChainRep _ _ (s.slot I none) L from hc) hnd
    (fun _ e => absurd e (by simp)) hnd.length_le_card
  have hsub := examinedChain_sublist (fun x => (s.kexts x).hasAllDependencies) L
  exact ⟨_, hw.2, hsub.nodup hnd,
    fun x hx => (reaches_iff_mem_of_chainRep hc x).mpr (hsub.subset hx)⟩

omit [DecidableEq ι] [DecidableEq κ] in
theorem kexts_eq_of_withoutStructure {s s' : Manager ι κ}
    (h : s'.withoutStructure = s.withoutStructure) : s'.kexts = s.kexts := by
  have := congrArg kexts h; exact this

/-- **Pass 2 over the dictionary.**  Walking the entries of a snapshot of the
dictionary, keys distinct and chains disjoint, leaves for each walked key the
chain that pass 2 keeps, and records what it drops, key by key. -/
theorem removeCandidatesMissingDependencies_spec [Fintype κ] (ok : κ → Bool) :
    ∀ (es : List (Σ _ : ι, κ)) (s : Manager ι κ) (F : ι → List (List κ)),
      (∀ x, (s.kexts x).hasAllDependencies = ok x) →
      (∀ I, ChainRep s.priorVersion s.duplicateVersion (s.candidateKexts.lookup I) (F I)) →
      (∀ I, (F I).flatten.Nodup) → (∀ I J, I ≠ J → List.Disjoint (F I).flatten (F J).flatten) →
      (es.map Sigma.fst).Nodup → (∀ e ∈ es, s.candidateKexts.lookup e.1 = some e.2) →
      (∀ I, ChainRep (removeCandidatesMissingDependencies es s).priorVersion
          (removeCandidatesMissingDependencies es s).duplicateVersion
          ((removeCandidatesMissingDependencies es s).candidateKexts.lookup I)
          (if I ∈ es.map Sigma.fst then filterChain ok (F I) else F I)) ∧
        (removeCandidatesMissingDependencies es s).kextsWithMissingDependencies =
          s.kextsWithMissingDependencies ++ es.flatMap (fun e => removedChain ok (F e.1)) ∧
        (removeCandidatesMissingDependencies es s).withoutStructure = s.withoutStructure
  | [], s, F, _, hc, _, _, _, _ =>
      ⟨fun I => by simpa [removeCandidatesMissingDependencies] using hc I,
        by simp [removeCandidatesMissingDependencies], rfl⟩
  | e :: es, s, F, hok, hc, hnd, hdisj, hkeys, he => by
      have he₀ : s.slot e.1 none = some e.2 := he e (List.mem_cons_self _ _)
      have hR := removeKextsMissingDependencies_spec e.1 ok (Fintype.card κ) hok
        (show ChainRep _ _ (s.slot e.1 none) (F e.1) from hc e.1) (hnd e.1) (by simp)
        (hnd e.1).length_le_card
      rw [he₀] at hR
      have he₁ : e.1 ∉ es.map Sigma.fst := (List.nodup_cons.mp hkeys).1
      have hsub := filterChain_flatten_sublist ok (F e.1)
      set s₁ := removeKextsMissingDependencies e.1 (Fintype.card κ) s none (some e.2)
      set F' := Function.update F e.1 (filterChain ok (F e.1)) with hF'
      have hF'sub : ∀ I, List.Sublist (F' I).flatten (F I).flatten := fun I => by
        by_cases hI : I = e.1
        · subst hI; simpa [hF'] using hsub
        · simp [hF', hI]
      have hc₁ : ∀ I, ChainRep s₁.priorVersion s₁.duplicateVersion (s₁.candidateKexts.lookup I)
          (F' I) := fun I => by
        by_cases hI : I = e.1
        · subst hI; simpa [hF'] using hR.chain
        · simp only [hF', Function.update_noteq hI]
          rw [hR.lookup_frame I (Or.inl hI)]
          exact (hc I).frame
            (fun m hm => hR.prior_frame m (fun h' => hdisj I e.1 hI hm h') (by simp))
            (fun m hm => hR.dup_frame m (fun h' => hdisj I e.1 hI hm h'))
      have ih := removeCandidatesMissingDependencies_spec ok es s₁ F'
        (by rwa [kexts_eq_of_withoutStructure hR.rest]) hc₁
        (fun I => (hF'sub I).nodup (hnd I))
        (fun I J hIJ x hxI hxJ => hdisj I J hIJ ((hF'sub I).subset hxI) ((hF'sub J).subset hxJ))
        (List.nodup_cons.mp hkeys).2
        (fun e' he' => by
          have hne : e'.1 ≠ e.1 := fun h' => he₁ (h' ▸ List.mem_map_of_mem _ he')
          rw [hR.lookup_frame e'.1 (Or.inl hne)]
          exact he e' (List.mem_cons_of_mem _ he'))
      have hflat : es.flatMap (fun e => removedChain ok (F' e.1)) =
          es.flatMap (fun e => removedChain ok (F e.1)) := List.flatMap_congr fun e' he' => by
        have hne : e'.1 ≠ e.1 := fun h' => he₁ (h' ▸ List.mem_map_of_mem _ he')
        simp [hF', hne]
      have hstep : removeCandidatesMissingDependencies (e :: es) s =
          removeCandidatesMissingDependencies es s₁ := rfl
      rw [hstep]
      refine ⟨fun I => ?_, ih.2.1.trans (by rw [hflat, hR.missing]; simp), ih.2.2.trans hR.rest⟩
      have := ih.1 I
      by_cases hI : I = e.1
      · subst hI; simpa [hF', he₁] using this
      · simpa [hF', hI] using this

/-! ### Pass 1 in closed form -/

/-- The manager after `KXKextResolveDependencies` on each kext of `xs`. -/
def markResolved (resolve : κ → KXKextManagerError) (xs : List κ) (s : Manager ι κ) :
    Manager ι κ :=
  { s with kexts := fun k =>
      if k ∈ xs then { s.kexts k with hasAllDependencies := decide (resolve k = .none) }
      else s.kexts k }

/-- The manager with what dependency resolution computed forgotten. -/
def withoutDependencies (s : Manager ι κ) : Manager ι κ :=
  { s with kexts := fun k => { s.kexts k with hasAllDependencies := false } }

/-- The manager with the chain structure, the missing-dependency list and what
dependency resolution computed forgotten: what `KXKextManagerResolveAllKextDependencies`
leaves alone. -/
def withoutResolution (s : Manager ι κ) : Manager ι κ :=
  s.withoutStructure.withoutDependencies

section Marks

variable (resolve : κ → KXKextManagerError) (s : Manager ι κ)

omit [DecidableEq ι] in
theorem resolveDependencies_eq (k : κ) :
    s.resolveDependencies resolve k = s.markResolved resolve [k] := by
  unfold resolveDependencies markResolved modifyKext
  congr 1; funext m; rw [Function.update_apply]; by_cases h : m = k <;> simp [h]

omit [DecidableEq ι] in
theorem markResolved_markResolved (A B : List κ) :
    (s.markResolved resolve A).markResolved resolve B = s.markResolved resolve (A ++ B) := by
  unfold markResolved
  congr 1; funext k; by_cases hA : k ∈ A <;> by_cases hB : k ∈ B <;> simp [hA, hB]

omit [DecidableEq ι] in
@[simp] theorem markResolved_nil : s.markResolved resolve [] = s := rfl

omit [DecidableEq ι] in
@[simp] theorem markResolved_priorVersion (xs : List κ) :
    (s.markResolved resolve xs).priorVersion = s.priorVersion := rfl

omit [DecidableEq ι] in
@[simp] theorem markResolved_duplicateVersion (xs : List κ) :
    (s.markResolved resolve xs).duplicateVersion = s.duplicateVersion := rfl

omit [DecidableEq ι] in
@[simp] theorem markResolved_candidateKexts (xs : List κ) :
    (s.markResolved resolve xs).candidateKexts = s.candidateKexts := rfl

omit [DecidableEq ι] in
@[simp] theorem withoutDependencies_markResolved (xs : List κ) :
    (s.markResolved resolve xs).withoutDependencies = s.withoutDependencies := by
  unfold markResolved withoutDependencies
  congr 1; funext k; dsimp only; split_ifs <;> rfl

omit [DecidableEq ι] in
theorem markResolved_hasAllDependencies {xs : List κ} {k : κ} (hk : k ∈ xs) :
    ((s.markResolved resolve xs).kexts k).hasAllDependencies = decide (resolve k = .none) := by
  simp [markResolved, hk]

end Marks

omit [DecidableEq ι] in
theorem resolveDependencies_keepsLinks (resolve : κ → KXKextManagerError) :
    KeepsLinks (resolveDependencies (ι := ι) resolve) := fun _ _ => ⟨rfl, rfl⟩

omit [DecidableEq ι] in
theorem foldl_resolveDependencies (resolve : κ → KXKextManagerError) (xs : List κ)
    (s : Manager ι κ) : xs.foldl (resolveDependencies resolve) s = s.markResolved resolve xs := by
  induction xs generalizing s with
  | nil => rfl
  | cons x xs ih => rw [List.foldl_cons, ih, resolveDependencies_eq, markResolved_markResolved]; rfl

omit [DecidableEq ι] in
/-- Pass 1 along a chain resolves exactly its kexts, version nodes and
duplicates alike. -/
theorem resolveVersionChain_eq [Fintype κ] (resolve : κ → KXKextManagerError) (fuel : Nat)
    (s : Manager ι κ) {h : Option κ} {L : List (List κ)}
    (hc : ChainRep s.priorVersion s.duplicateVersion h L) (hnd : L.flatten.Nodup)
    (hf : L.length ≤ fuel) : resolveVersionChain resolve fuel s h = s.markResolved resolve L.flatten := by
  rw [resolveVersionChain, walkVersionChain_eq (resolveDependencies_keepsLinks resolve) ?_ fuel s hc
    hnd hf, foldl_resolveDependencies]
  intro s n ds hd hnd
  exact walkDuplicateChain_eq (resolveDependencies_keepsLinks resolve) _ hd
    ((Nat.le_succ _).trans hnd.length_le_card)

/-- Pass 1 over a list of dictionary entries resolves the kexts of their
chains. -/
theorem resolveCandidateChains_eq [Fintype κ] (resolve : κ → KXKextManagerError)
    {F : ι → List (List κ)} (hnd : ∀ I, (F I).flatten.Nodup) :
    ∀ (es : List (Σ _ : ι, κ)) (s : Manager ι κ),
      (∀ I, ChainRep s.priorVersion s.duplicateVersion (s.candidateKexts.lookup I) (F I)) →
      (∀ e ∈ es, s.candidateKexts.lookup e.1 = some e.2) →
      resolveCandidateChains resolve es s =
        s.markResolved resolve (es.flatMap fun e => (F e.1).flatten)
  | [], _, _, _ => rfl
  | e :: es, s, hc, he => by
      have hce := hc e.1
      rw [he e (List.mem_cons_self _ _)] at hce
      rw [resolveCandidateChains, List.foldl_cons, resolveVersionChain_eq resolve _ _ hce (hnd e.1)
        (hce.length_le.trans (hnd e.1).length_le_card)]
      refine (resolveCandidateChains_eq resolve hnd es (s.markResolved resolve (F e.1).flatten) hc
        fun e' he' => he e' (List.mem_cons_of_mem _ he')).trans ?_
      rw [markResolved_markResolved]; rfl

omit [DecidableEq ι] in
/-- The full-tests loop resolves the bad kexts of every repository. -/
theorem foldl_resolveBadKextDependencies (resolve : κ → KXKextManagerError)
    (rs : List (Repository κ)) (s : Manager ι κ) :
    rs.foldl (resolveBadKextDependencies resolve) s =
      s.markResolved resolve (rs.flatMap Repository.badKexts) := by
  induction rs generalizing s with
  | nil => rfl
  | cons r rs ih =>
      rw [List.foldl_cons, ih, resolveBadKextDependencies, foldl_resolveDependencies,
        markResolved_markResolved]
      rfl

omit [DecidableEq ι] in
@[simp] theorem withoutResolution_markResolved (resolve : κ → KXKextManagerError) (xs : List κ)
    (s : Manager ι κ) : (s.markResolved resolve xs).withoutResolution = s.withoutResolution :=
  withoutDependencies_markResolved resolve s.withoutStructure xs

section ResolutionFrame

variable {s s' : Manager ι κ} (h : s'.withoutResolution = s.withoutResolution)
include h

omit [DecidableEq ι] [DecidableEq κ]

theorem versionOf_eq_of_withoutResolution : s'.versionOf = s.versionOf := by
  funext k; have := congrArg (fun t : Manager ι κ => (t.kexts k).version) h; exact this

theorem identifierOf_eq_of_withoutResolution : s'.identifierOf = s.identifierOf := by
  funext k; have := congrArg (fun t : Manager ι κ => (t.kexts k).bundleIdentifier) h; exact this

theorem teardownCount_eq_of_withoutResolution : s'.teardownCount = s.teardownCount := by
  have := congrArg teardownCount h; exact this

end ResolutionFrame

omit [DecidableEq ι] [DecidableEq κ] in
theorem withoutResolution_eq_of_withoutStructure {s s' : Manager ι κ}
    (h : s'.withoutStructure = s.withoutStructure) : s'.withoutResolution = s.withoutResolution :=
  congrArg withoutDependencies h

/-! ### What a resolution leaves alone, on any state -/

omit [DecidableEq ι] in
theorem resolveVersionChain_withoutDependencies [Fintype κ] (resolve : κ → KXKextManagerError)
    (fuel : Nat) (s : Manager ι κ) (p : Option κ) :
    (resolveVersionChain resolve fuel s p).withoutDependencies = s.withoutDependencies := by
  have hv : ∀ (s : Manager ι κ) k, (s.resolveDependencies resolve k).withoutDependencies =
      s.withoutDependencies := fun s k => by
    rw [resolveDependencies_eq, withoutDependencies_markResolved]
  refine walkVersionChain_invariant withoutDependencies (fun s k => ?_) fuel s p
  exact (walkDuplicateChain_invariant withoutDependencies hv _ _ _).trans (hv s k)

omit [DecidableEq ι] in
theorem peekDuplicates_withoutDuplicates :
    ∀ (fuel : Nat) (s : Manager ι κ) (d : κ) (p : Option κ),
      (peekDuplicates fuel s d p).withoutDuplicates = s.withoutDuplicates
  | 0, _, _, _ => rfl
  | _ + 1, _, _, none => rfl
  | fuel + 1, s, d, some p => by
      simp only [peekDuplicates]
      split_ifs
      · rw [peekDuplicates_withoutDuplicates]; rfl
      · exact peekDuplicates_withoutDuplicates fuel s p _

omit [DecidableEq ι] in
theorem checkDuplicates_withoutDuplicates [Fintype κ] (s : Manager ι κ) (k : κ) :
    (s.checkDuplicates k).withoutDuplicates = s.withoutDuplicates := by
  unfold checkDuplicates
  split
  · rfl
  · exact peekDuplicates_withoutDuplicates _ s _ _

theorem removeKextsMissingDependencies_withoutStructure [Fintype κ] (id : ι) :
    ∀ (fuel : Nat) (s : Manager ι κ) (prevKext p : Option κ),
      (removeKextsMissingDependencies id fuel s prevKext p).withoutStructure = s.withoutStructure
  | 0, _, _, _ => rfl
  | _ + 1, _, _, none => rfl
  | fuel + 1, s, prevKext, some k => by
      simp only [removeKextsMissingDependencies]
      split_ifs
      · split <;> rw [removeKextsMissingDependencies_withoutStructure] <;> simp
      · rw [removeKextsMissingDependencies_withoutStructure]
        exact withoutStructure_eq_of_withoutDuplicates (checkDuplicates_withoutDuplicates s k)

/-- `KXKextManagerResolveAllKextDependencies` writes only the chain structure,
`kextsWithMissingDependencies` and `hasAllDependencies`. -/
theorem resolveAllKextDependencies_withoutResolution [Fintype κ]
    (resolve : κ → KXKextManagerError) (mallocOk : Bool) (s : Manager ι κ) :
    (s.resolveAllKextDependencies resolve mallocOk).withoutResolution = s.withoutResolution := by
  have h₁ : ∀ (es : List (Σ _ : ι, κ)) (s : Manager ι κ),
      (resolveCandidateChains resolve es s).withoutDependencies = s.withoutDependencies := by
    intro es
    induction es with
    | nil => intro s; rfl
    | cons e es ih =>
        intro s
        exact (ih _).trans (resolveVersionChain_withoutDependencies resolve _ s _)
  have h₂ : ∀ (es : List (Σ _ : ι, κ)) (s : Manager ι κ),
      (removeCandidatesMissingDependencies es s).withoutStructure = s.withoutStructure := by
    intro es
    induction es with
    | nil => intro s; rfl
    | cons e es ih =>
        intro s
        exact (ih _).trans (removeKextsMissingDependencies_withoutStructure _ _ s _ _)
  have h₃ : (removeCandidatesMissingDependencies s.candidateKexts.entries
      (resolveCandidateChains resolve s.candidateKexts.entries s)).withoutResolution =
      s.withoutResolution := by
    refine (withoutResolution_eq_of_withoutStructure (h₂ _ _)).trans ?_
    have := congrArg withoutStructure (h₁ s.candidateKexts.entries s)
    exact this
  unfold resolveAllKextDependencies
  dsimp only
  split_ifs
  · rfl
  · rw [foldl_resolveBadKextDependencies, withoutResolution_markResolved, h₃]
  · exact h₃

/-- **What `KXKextManagerResolveAllKextDependencies` does.**  On chains
represented from every key of the dictionary, each holding its kexts once and
no two sharing a kext: every kext of a chain records whether it resolved; each
chain becomes what pass 2 keeps of it under these results (`filterChain`,
which keeps the first duplicate of a kept version node unchecked); what pass 2
drops is appended to `kextsWithMissingDependencies`, key by key in dictionary
order.  Nothing else changes (`resolveAllKextDependencies_withoutResolution`). -/
theorem resolveAllKextDependencies_spec [Fintype κ] (resolve : κ → KXKextManagerError)
    {mallocOk : Bool} {s : Manager ι κ} {L : ι → List (List κ)}
    (hc : ∀ I, ChainRep s.priorVersion s.duplicateVersion (s.candidateKexts.lookup I) (L I))
    (hnd : ∀ I, (L I).flatten.Nodup)
    (hdisj : ∀ I J, I ≠ J → List.Disjoint (L I).flatten (L J).flatten)
    (hmalloc : s.candidateKexts.entries = [] ∨ mallocOk = true) :
    (∀ I, ChainRep (s.resolveAllKextDependencies resolve mallocOk).priorVersion
        (s.resolveAllKextDependencies resolve mallocOk).duplicateVersion
        ((s.resolveAllKextDependencies resolve mallocOk).candidateKexts.lookup I)
        (filterChain (fun k => decide (resolve k = .none)) (L I))) ∧
      (s.resolveAllKextDependencies resolve mallocOk).kextsWithMissingDependencies =
        s.kextsWithMissingDependencies ++ s.candidateKexts.entries.flatMap
          (fun e => removedChain (fun k => decide (resolve k = .none)) (L e.1)) ∧
      ∀ I, ∀ k ∈ (L I).flatten,
        ((s.resolveAllKextDependencies resolve mallocOk).kexts k).hasAllDependencies =
          decide (resolve k = .none) := by
  set es := s.candidateKexts.entries with hes
  set ok : κ → Bool := fun k => decide (resolve k = .none)
  have hlook : ∀ e ∈ es, s.candidateKexts.lookup e.1 = some e.2 := fun e he =>
    AList.mem_lookup_iff.mpr he
  -- a kext of a chain belongs to the chain of a key
  have hkey : ∀ I, ∀ k ∈ (L I).flatten, ∃ e ∈ es, e.1 = I := fun I k hk => by
    cases h : s.candidateKexts.lookup I with
    | none =>
        have := hc I
        rw [h] at this
        rw [this.eq_nil_of_none] at hk; simp at hk
    | some n => exact ⟨⟨I, n⟩, AList.mem_lookup_iff.mp h, rfl⟩
  set s₁ := resolveCandidateChains resolve es s
  have hs₁ : s₁ = s.markResolved resolve (es.flatMap fun e => (L e.1).flatten) :=
    resolveCandidateChains_eq resolve hnd es s hc hlook
  have hok₁ : ∀ I, ∀ k ∈ (L I).flatten, (s₁.kexts k).hasAllDependencies = ok k := fun I k hk => by
    obtain ⟨e, he, rfl⟩ := hkey I k hk
    rw [hs₁, markResolved_hasAllDependencies _ _ (List.mem_flatMap.mpr ⟨e, he, hk⟩)]
  have P := removeCandidatesMissingDependencies_spec (fun k => (s₁.kexts k).hasAllDependencies) es
    s₁ L (fun _ => rfl) (by rw [hs₁]; exact hc) hnd hdisj s.candidateKexts.nodupKeys
    (by rw [hs₁]; exact hlook)
  set s₂ := removeCandidatesMissingDependencies es s₁
  have hs₂k : s₂.kexts = s₁.kexts := kexts_eq_of_withoutStructure P.2.2
  have hstep : s.resolveAllKextDependencies resolve mallocOk =
      if s₂.performsFullTests then s₂.markResolved resolve (s₂.repositoryList.list.flatMap
        Repository.badKexts) else s₂ := by
    rw [← foldl_resolveBadKextDependencies]
    unfold resolveAllKextDependencies
    rw [if_neg (by rcases hmalloc with h | h <;> simp [← hes, h])]
  have hchain₂ : ∀ I, ChainRep s₂.priorVersion s₂.duplicateVersion
      (s₂.candidateKexts.lookup I) (filterChain ok (L I)) := fun I => by
    have h := P.1 I
    rw [filterChain_congr (fun k hk => (hok₁ I k hk).symm)]
    by_cases hI : I ∈ es.map Sigma.fst
    · rwa [if_pos hI] at h
    · rw [if_neg hI] at h
      cases hl : s.candidateKexts.lookup I with
      | none =>
          have h0 : L I = [] := by have := hc I; rw [hl] at this; exact this.eq_nil_of_none
          rw [h0] at h ⊢; exact h
      | some n => exact absurd (List.mem_map.mpr ⟨⟨I, n⟩, AList.mem_lookup_iff.mp hl, rfl⟩) hI
  have hmissing₂ : s₂.kextsWithMissingDependencies =
      s.kextsWithMissingDependencies ++ es.flatMap (fun e => removedChain ok (L e.1)) := by
    rw [P.2.1, List.flatMap_congr fun e _ => removedChain_congr fun k hk => hok₁ e.1 k hk, hs₁]
    rfl
  have hflags₂ : ∀ I, ∀ k ∈ (L I).flatten, (s₂.kexts k).hasAllDependencies = ok k :=
    fun I k hk => by rw [hs₂k]; exact hok₁ I k hk
  rw [hstep]
  split_ifs
  · refine ⟨hchain₂, hmissing₂, fun I k hk => ?_⟩
    simp only [markResolved]
    split_ifs
    · rfl
    · exact hflags₂ I k hk
  · exact ⟨hchain₂, hmissing₂, hflags₂⟩

/-- **The first duplicate of a kept version node is never checked.**  Pass 2
peeks from the first duplicate onwards, so that duplicate stays in its chain
and off `kextsWithMissingDependencies`, with whatever flag pass 1 gave it. -/
theorem resolveAllKextDependencies_keeps_first_duplicate [Fintype κ]
    (resolve : κ → KXKextManagerError) {mallocOk : Bool} {s : Manager ι κ}
    {L : ι → List (List κ)}
    (hc : ∀ I, ChainRep s.priorVersion s.duplicateVersion (s.candidateKexts.lookup I) (L I))
    (hnd : ∀ I, (L I).flatten.Nodup)
    (hdisj : ∀ I J, I ≠ J → List.Disjoint (L I).flatten (L J).flatten)
    (hmalloc : s.candidateKexts.entries = [] ∨ mallocOk = true)
    {I : ι} {n d : κ} {ds : List κ} (hlev : n :: d :: ds ∈ L I) (hn : resolve n = .none)
    (hd : d ∉ s.kextsWithMissingDependencies) :
    Reaches (s.resolveAllKextDependencies resolve mallocOk) I d ∧
      ((s.resolveAllKextDependencies resolve mallocOk).kexts d).hasAllDependencies =
        decide (resolve d = .none) ∧
      d ∉ (s.resolveAllKextDependencies resolve mallocOk).kextsWithMissingDependencies := by
  obtain ⟨hchain, hmissing, hflags⟩ := resolveAllKextDependencies_spec resolve hc hnd hdisj hmalloc
  set ok : κ → Bool := fun k => decide (resolve k = .none)
  have hdI : d ∈ (L I).flatten := List.mem_flatten.mpr ⟨_, hlev, by simp⟩
  refine ⟨(reaches_iff_mem_of_chainRep (hchain I) d).mpr ?_, hflags I d hdI, ?_⟩
  · -- the level survives with `d` in second place
    refine List.mem_flatten.mpr ⟨filterLevel ok (n :: d :: ds), List.mem_filter.mpr
      ⟨List.mem_map_of_mem _ hlev, by simp [filterLevel, ok, hn]⟩, by simp [filterLevel, ok, hn]⟩
  · rw [hmissing, List.mem_append, not_or]
    refine ⟨hd, fun h => ?_⟩
    obtain ⟨e, -, he⟩ := List.mem_flatMap.mp h
    obtain ⟨l, hl, hdl⟩ := List.mem_flatMap.mp he
    have hdl' : d ∈ l := (removedLevel_sublist ok l).subset hdl
    have hIe : e.1 = I := by
      by_contra hne
      exact hdisj e.1 I hne (List.mem_flatten.mpr ⟨l, hl, hdl'⟩) hdI
    subst hIe
    -- `l` is the level of `d`, whose records skip `d`
    have hll : l = n :: d :: ds := by
      by_contra hne
      exact (List.nodup_flatten.mp (hnd e.1)).2.forall (fun _ _ h => h.symm) hl hlev hne hdl'
        (by simp)
    subst hll
    have hds : d ∉ ds := (List.nodup_cons.mp ((List.nodup_flatten.mp (hnd e.1)).1 _ hl)).2
      |> fun h => (List.nodup_cons.mp h).1
    simp [removedLevel, ok, hn] at hdl
    exact hds hdl.1

end Manager

/-- The failing input of the unchecked first duplicate: one repository holding
two enabled, valid kexts of identifier `0` and the same version. -/
def sameVersionPair : Manager Nat (Fin 2) where
  repositoryList := ⟨[⟨0, [0, 1], []⟩], by decide, by decide⟩
  kexts := fun _ =>
    { bundleIdentifier := 0, version := 1, isValid := true, isEnabled := true,
      isEligibleDuringSafeBoot := true, loadFailed := false, isLoaded := false,
      otherVersionIsLoaded := false, isAuthentic := true, hasAllDependencies := false,
      startAddress := 0 }
  priorVersion := fun _ => none
  duplicateVersion := fun _ => none
  candidateKexts := ∅
  kextsWithMissingDependencies := []
  clearRelationshipsDisableCount := 0
  needsClearRelationships := false
  needsCalculateRelationships := true
  performsFullTests := false
  performLoadsInTask := false
  safeBoot := false
  teardownCount := 0

/-- The chains of the built `sameVersionPair`: the head `0` of identifier `0`
with its duplicate `1`, and no head for any other identifier. -/
def sameVersionPairChains (I : Nat) : List (List (Fin 2)) :=
  if I = 0 then [[0, 1]] else []

theorem sameVersionPairChains_chainRep (I : Nat) :
    ChainRep sameVersionPair.calculateVersionRelationships.priorVersion
      sameVersionPair.calculateVersionRelationships.duplicateVersion
      (sameVersionPair.calculateVersionRelationships.candidateKexts.lookup I) (sameVersionPairChains I) := by
  by_cases hI : I = 0
  · subst hI
    exact ⟨by decide, ⟨by decide,
      (by decide : sameVersionPair.calculateVersionRelationships.duplicateVersion 1 = none)⟩, by decide,
      (by decide : sameVersionPair.calculateVersionRelationships.priorVersion 0 = none)⟩
  · rw [sameVersionPairChains, if_neg hI, chainRep_nil]
    -- a head of `I` would carry `I`, and both kexts carry `0`
    cases h : sameVersionPair.calculateVersionRelationships.candidateKexts.lookup I with
    | none => rfl
    | some n =>
        have hid : ∀ n : Fin 2, sameVersionPair.calculateVersionRelationships.identifierOf n = 0 := by
          decide
        exact absurd (((Manager.calculateVersionRelationships_built _).identifierOf_eq I n
          (.head h)).symm.trans (hid n)) hI

theorem sameVersionPairChains_nodup (I : Nat) : (sameVersionPairChains I).flatten.Nodup := by
  unfold sameVersionPairChains; split_ifs <;> decide

theorem sameVersionPairChains_disjoint (I J : Nat) (h : I ≠ J) :
    List.Disjoint (sameVersionPairChains I).flatten (sameVersionPairChains J).flatten := by
  unfold sameVersionPairChains
  by_cases h₁ : I = 0 <;> by_cases h₂ : J = 0 <;> simp [h₁, h₂] at h ⊢

/-- The built `sameVersionPair` resolved with kext `0` passing and kext `1`
failing. -/
theorem resolveAllKextDependencies_spec_pair :
    ∃ (s : Manager Nat (Fin 2)) (resolve : Fin 2 → KXKextManagerError),
      s = sameVersionPair.calculateVersionRelationships ∧
      resolve = (fun k => if k = 0 then .none else .dependency) ∧
      (∀ I, ChainRep s.priorVersion s.duplicateVersion (s.candidateKexts.lookup I)
        (sameVersionPairChains I)) ∧
      (∀ I, (sameVersionPairChains I).flatten.Nodup) ∧
      (∀ I J, I ≠ J → List.Disjoint (sameVersionPairChains I).flatten (sameVersionPairChains J).flatten) ∧
      (s.candidateKexts.entries = [] ∨ true = true) ∧
      (∀ I, ChainRep (s.resolveAllKextDependencies resolve true).priorVersion
          (s.resolveAllKextDependencies resolve true).duplicateVersion
          ((s.resolveAllKextDependencies resolve true).candidateKexts.lookup I)
          (filterChain (fun k => decide (resolve k = .none)) (sameVersionPairChains I))) ∧
        (s.resolveAllKextDependencies resolve true).kextsWithMissingDependencies =
          s.kextsWithMissingDependencies ++ s.candidateKexts.entries.flatMap
            (fun e => removedChain (fun k => decide (resolve k = .none)) (sameVersionPairChains e.1)) ∧
        ∀ I, ∀ k ∈ (sameVersionPairChains I).flatten,
          ((s.resolveAllKextDependencies resolve true).kexts k).hasAllDependencies =
            decide (resolve k = .none) :=
  ⟨_, _, rfl, rfl, sameVersionPairChains_chainRep, sameVersionPairChains_nodup,
    sameVersionPairChains_disjoint, .inr rfl,
    Manager.resolveAllKextDependencies_spec _ sameVersionPairChains_chainRep sameVersionPairChains_nodup
      sameVersionPairChains_disjoint (.inr rfl)⟩

/-- The same resolution: the first duplicate, kext `1`, of the head `0` that
passes is never checked. -/
theorem resolveAllKextDependencies_keeps_first_duplicate_pair :
    ∃ (s : Manager Nat (Fin 2)) (resolve : Fin 2 → KXKextManagerError),
      s = sameVersionPair.calculateVersionRelationships ∧
      resolve = (fun k => if k = 0 then .none else .dependency) ∧
      (∀ I, ChainRep s.priorVersion s.duplicateVersion (s.candidateKexts.lookup I)
        (sameVersionPairChains I)) ∧
      (∀ I, (sameVersionPairChains I).flatten.Nodup) ∧
      (∀ I J, I ≠ J → List.Disjoint (sameVersionPairChains I).flatten (sameVersionPairChains J).flatten) ∧
      (s.candidateKexts.entries = [] ∨ true = true) ∧ [0, 1] ∈ sameVersionPairChains 0 ∧
      resolve 0 = .none ∧ (1 : Fin 2) ∉ s.kextsWithMissingDependencies ∧
      Reaches (s.resolveAllKextDependencies resolve true) 0 1 ∧
      ((s.resolveAllKextDependencies resolve true).kexts 1).hasAllDependencies =
        decide (resolve 1 = .none) ∧
      1 ∉ (s.resolveAllKextDependencies resolve true).kextsWithMissingDependencies :=
  have hd : (1 : Fin 2) ∉ sameVersionPair.calculateVersionRelationships.kextsWithMissingDependencies := by
    decide
  ⟨_, _, rfl, rfl, sameVersionPairChains_chainRep, sameVersionPairChains_nodup,
    sameVersionPairChains_disjoint, .inr rfl, List.mem_singleton_self _, rfl, hd,
    Manager.resolveAllKextDependencies_keeps_first_duplicate _ sameVersionPairChains_chainRep
      sameVersionPairChains_nodup sameVersionPairChains_disjoint (.inr rfl) (List.mem_singleton_self _) rfl hd⟩

/-- After a build and a resolution in which kext `0` resolves and kext `1` does
not, kext `1` is still reached from the head of identifier `0`, lacks its
dependencies, and is not listed as missing them. -/
theorem resolveAllKextDependencies_sameVersionPair :
    Reaches (sameVersionPair.calculateVersionRelationships.resolveAllKextDependencies
        (fun k => if k = 0 then .none else .dependency) true) 0 1 ∧
      ((sameVersionPair.calculateVersionRelationships.resolveAllKextDependencies
        (fun k => if k = 0 then .none else .dependency) true).kexts 1).hasAllDependencies = false ∧
      1 ∉ (sameVersionPair.calculateVersionRelationships.resolveAllKextDependencies
        (fun k => if k = 0 then .none else .dependency) true).kextsWithMissingDependencies :=
  ⟨.duplicate (k := 0) (.head (by decide)) (by decide), by decide, by decide⟩

theorem removeKextsMissingDependencies_examines_once_pair :
    Manager.Built sameVersionPair.calculateVersionRelationships ∧
      ∃ xs, Manager.removeKextsMissingDependenciesExamined 0 (Fintype.card (Fin 2))
          sameVersionPair.calculateVersionRelationships none
          (sameVersionPair.calculateVersionRelationships.candidateKexts.lookup 0) = some xs ∧
        xs.Nodup ∧ ∀ x ∈ xs, Reaches sameVersionPair.calculateVersionRelationships 0 x :=
  ⟨Manager.calculateVersionRelationships_built _,
    Manager.removeKextsMissingDependencies_examines_once
      (Manager.calculateVersionRelationships_built _) 0⟩


end KextManager
