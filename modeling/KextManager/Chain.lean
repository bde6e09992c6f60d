/-
KextManager/Chain.lean

Version chains.  The manager links the kexts of one bundle identifier into a
two-dimensional list: version nodes, linked by `priorVersion` from the head
stored in `candidateKexts` in strictly descending version order, and off each
node its duplicates (same version), linked by `duplicateVersion`.

Abstractly such a chain is a list of *levels*, `List (List κ)`: a level is a
version node followed by its duplicates.  `ChainRep prior dup h L` says that
the links, read from the pointer `h`, spell out exactly `L` (duplicates carry
no prior link), and `DupRep` does the same for one duplicate sub-chain.  Both constrain only the links of the
kexts in `L` (`ChainRep.frame`), which is what lets each manager operation be
proved against the abstract chain it edits.

`IsChainOf v xs L` is what the builder promises: `L` has one level per version
occurring in `xs`, in strictly descending order, and the level of version `w`
is `xs` filtered to version `w`.  `insertVersion` is the abstract effect of
adding one kext, and it keeps `IsChainOf` (`isChainOf_insertVersion`).

Finally `Reaches s I k` is reachability of `k` from the head of `I` through
any link; under `ChainRep` it is membership in the abstract chain
(`reaches_iff_mem_of_chainRep`).
-/
import KextManager.Basic

namespace KextManager

variable {κ : Type}

/-! ### Representation of chains by links -/

/-- `DupRep dup n ds`: the duplicate chain hanging off `n` is exactly `ds`. -/
def DupRep (dup : κ → Option κ) : κ → List κ → Prop
  | n, [] => dup n = none
  | n, d :: ds => dup n = some d ∧ DupRep dup d ds

/-- `ChainRep prior dup h L`: from the pointer `h`, the version nodes and their
duplicate chains are exactly the levels of `L`, and the duplicates carry no
prior link. -/
def ChainRep (prior dup : κ → Option κ) : Option κ → List (List κ) → Prop
  | h, [] => h = none
  | _, [] :: _ => False
  | h, (n :: ds) :: L =>
      h = some n ∧ DupRep dup n ds ∧ (∀ d ∈ ds, prior d = none) ∧ ChainRep prior dup (prior n) L

@[simp] theorem chainRep_nil {prior dup : κ → Option κ} {h : Option κ} :
    ChainRep prior dup h [] ↔ h = none := Iff.rfl

@[simp] theorem chainRep_cons {prior dup : κ → Option κ} {h : Option κ} {n : κ}
    {ds : List κ} {L : List (List κ)} :
    ChainRep prior dup h ((n :: ds) :: L) ↔
      h = some n ∧ DupRep dup n ds ∧ (∀ d ∈ ds, prior d = none) ∧
        ChainRep prior dup (prior n) L := Iff.rfl

/-- A duplicate chain depends only on the `duplicateVersion` links of its kexts. -/
theorem DupRep.frame {dup dup' : κ → Option κ} :
    ∀ {n : κ} {ds : List κ}, DupRep dup n ds →
      (∀ m ∈ n :: ds, dup' m = dup m) → DupRep dup' n ds
  | n, [], h, hag => by
      simp only [DupRep] at h ⊢
      rw [hag n (List.mem_cons_self _ _), h]
  | n, d :: ds, ⟨h, hrest⟩, hag => by
      refine ⟨by rw [hag n (List.mem_cons_self _ _), h], hrest.frame fun m hm => ?_⟩
      exact hag m (List.mem_cons_of_mem _ hm)

/-- A chain depends only on the links of the kexts in it. -/
theorem ChainRep.frame {prior dup prior' dup' : κ → Option κ} :
    ∀ {h : Option κ} {L : List (List κ)}, ChainRep prior dup h L →
      (∀ m ∈ L.flatten, prior' m = prior m) → (∀ m ∈ L.flatten, dup' m = dup m) →
      ChainRep prior' dup' h L
  | _, [], h, _, _ => h
  | _, [] :: _, h, _, _ => h.elim
  | _, (n :: ds) :: L, ⟨hh, hd, hnp, hL⟩, hp, hdup => by
      refine ⟨hh, hd.frame fun m hm => hdup m (List.mem_append_left _ hm),
        fun d hd' => by rw [hp d (by simp [hd'])]; exact hnp d hd', ?_⟩
      rw [hp n (by simp)]
      exact hL.frame (fun m hm => hp m (by simp [hm])) (fun m hm => hdup m (by simp [hm]))

/-- A duplicate chain hangs as well from any kext linked where its start was. -/
theorem DupRep.rehead {dup dup' : κ → Option κ} {x n : κ} {xs : List κ} (h : DupRep dup x xs)
    (hn : dup' n = dup x) (hag : ∀ m ∈ xs, dup' m = dup m) : DupRep dup' n xs := by
  cases xs with
  | nil => exact hn.trans h
  | cons y ys => exact ⟨hn.trans h.1, h.2.frame hag⟩

/-- The successor of a kext in its duplicate chain is in the chain. -/
theorem DupRep.dup_mem {dup : κ → Option κ} :
    ∀ {n : κ} {ds : List κ}, DupRep dup n ds →
      ∀ m ∈ n :: ds, ∀ m', dup m = some m' → m' ∈ ds
  | n, [], h, m, hm, m', hm' => by
      simp only [DupRep, List.mem_singleton] at h hm
      subst hm; simp [h] at hm'
  | n, d :: ds, ⟨h, hrest⟩, m, hm, m', hm' => by
      rcases List.mem_cons.mp hm with rfl | hm
      · rw [h] at hm'; cases hm'; exact List.mem_cons_self _ _
      · exact List.mem_cons_of_mem _ (hrest.dup_mem m hm m' hm')

/-- Linking `k` after the last kext of a duplicate chain appends it. -/
theorem DupRep.append_last [DecidableEq κ] {dup : κ → Option κ} {k : κ} (hk : dup k = none) :
    ∀ {n : κ} {ds : List κ}, DupRep dup n ds → (k :: n :: ds).Nodup →
      DupRep (Function.update dup ((n :: ds).getLast (List.cons_ne_nil _ _)) (some k)) n
        (ds ++ [k])
  | n, [], h, hnd => by
      have hkn : k ≠ n := by simpa using hnd
      simp [DupRep, Function.update_noteq hkn, hk]
  | n, d :: ds, ⟨h, hrest⟩, hnd => by
      have hlast : (d :: ds).getLast (List.cons_ne_nil _ _) ∈ d :: ds := List.getLast_mem _
      have hn : n ≠ (d :: ds).getLast (List.cons_ne_nil _ _) := fun e => by
        rw [← e] at hlast; simp_all
      refine ⟨by rw [List.getLast_cons, Function.update_noteq hn, h], ?_⟩
      rw [List.getLast_cons]
      exact hrest.append_last hk (by simp_all)

/-- The head pointer of a represented chain is its first version node. -/
theorem ChainRep.head_mem {prior dup : κ → Option κ} :
    ∀ {h : Option κ} {L : List (List κ)}, ChainRep prior dup h L →
      ∀ n, h = some n → n ∈ L.flatten
  | _, [], h, n, hn => by simp_all
  | _, [] :: _, h, _, _ => h.elim
  | _, (n :: ds) :: L, ⟨hh, _, _, _⟩, n', hn' => by
      rw [hh] at hn'; cases hn'; simp

/-- A pointer `none` represents only the empty chain. -/
theorem ChainRep.eq_nil_of_none {prior dup : κ → Option κ} {L : List (List κ)}
    (h : ChainRep prior dup none L) : L = [] := by
  match L, h with
  | [], _ => rfl
  | [] :: _, h => exact h.elim
  | (_ :: _) :: _, ⟨h, _⟩ => cases h

/-- A pointer `some n` represents a chain whose first version node is `n`. -/
theorem ChainRep.exists_of_some {prior dup : κ → Option κ} {n : κ} {L : List (List κ)}
    (h : ChainRep prior dup (some n) L) : ∃ ds L', L = (n :: ds) :: L' := by
  match L, h with
  | [], h => cases h
  | [] :: _, h => exact h.elim
  | (_ :: ds) :: L', ⟨h, _⟩ => cases h; exact ⟨ds, L', rfl⟩

/-- A represented chain has no more levels than kexts. -/
theorem ChainRep.length_le {prior dup : κ → Option κ} :
    ∀ {h : Option κ} {L : List (List κ)}, ChainRep prior dup h L → L.length ≤ L.flatten.length
  | _, [], _ => le_refl _
  | _, [] :: _, h => h.elim
  | _, (_ :: ds) :: L, ⟨_, _, _, hL⟩ => by
      have := hL.length_le
      simp only [List.length_cons, List.flatten_cons, List.length_append]
      omega

/-- Links out of a represented chain stay inside it. -/
theorem ChainRep.closed {prior dup : κ → Option κ} :
    ∀ {h : Option κ} {L : List (List κ)}, ChainRep prior dup h L → ∀ k ∈ L.flatten,
      (∀ k', prior k = some k' → k' ∈ L.flatten) ∧ (∀ k', dup k = some k' → k' ∈ L.flatten)
  | _, [], _, k, hk => by simp at hk
  | _, [] :: _, h, _, _ => h.elim
  | _, (n :: ds) :: L, ⟨_, hd, hnp, hL⟩, k, hk => by
      rw [List.flatten_cons, List.mem_append] at hk
      rcases hk with hk | hk
      · refine ⟨fun k' hk' => ?_, fun k' hk' => ?_⟩
        · rcases List.mem_cons.mp hk with rfl | hk
          · exact List.mem_append_right _ (hL.head_mem k' hk')
          · simp [hnp k hk] at hk'
        · exact List.mem_append_left _ (List.mem_cons_of_mem _ (hd.dup_mem k hk k' hk'))
      · obtain ⟨h1, h2⟩ := hL.closed k hk
        exact ⟨fun k' hk' => List.mem_append_right _ (h1 k' hk'),
          fun k' hk' => List.mem_append_right _ (h2 k' hk')⟩

/-! ### The shape of a represented chain -/

section Shape

variable [DecidableEq κ] {prior dup : κ → Option κ}

/-- Duplicate links point forward along a duplicate chain. -/
theorem DupRep.index_lt :
    ∀ {n : κ} {ds : List κ}, DupRep dup n ds → (n :: ds).Nodup →
      ∀ m ∈ n :: ds, ∀ k, dup m = some k → (n :: ds).indexOf m < (n :: ds).indexOf k
  | n, [], h, _, m, hm, k, hk => by
      rw [List.mem_singleton] at hm; subst hm
      rw [show dup m = none from h] at hk; cases hk
  | n, d :: ds, ⟨hd, hrest⟩, hnd, m, hm, k, hk => by
      have hrep : DupRep dup n (d :: ds) := ⟨hd, hrest⟩
      have hk' : k ∈ d :: ds := hrep.dup_mem m hm k hk
      have hn : n ∉ d :: ds := (List.nodup_cons.mp hnd).1
      rw [List.indexOf_cons_ne (a := k) _ (fun e => hn (by rw [e]; exact hk'))]
      rcases List.mem_cons.mp hm with rfl | hm
      · rw [List.indexOf_cons_self]; exact Nat.succ_pos _
      · rw [List.indexOf_cons_ne (a := m) _ (fun e => hn (by rw [e]; exact hm))]
        exact Nat.succ_lt_succ (hrest.index_lt (List.nodup_cons.mp hnd).2 m hm k hk)

/-- **A represented chain has no cycle**: its links point forward in its
traversal order. -/
theorem ChainRep.index_lt :
    ∀ {h : Option κ} {L : List (List κ)}, ChainRep prior dup h L → L.flatten.Nodup →
      ∀ m ∈ L.flatten, ∀ k, (prior m = some k ∨ dup m = some k) →
        L.flatten.indexOf m < L.flatten.indexOf k
  | _, [], _, _, m, hm, _, _ => by simp at hm
  | _, [] :: _, h, _, _, _, _, _ => h.elim
  | _, (n :: ds) :: L, ⟨_, hd, hnp, hL⟩, hnd, m, hm, k, hk => by
      rw [List.flatten_cons] at hnd hm ⊢
      obtain ⟨hlev, hLnd, hdisj⟩ := List.nodup_append.mp hnd
      rcases List.mem_append.mp hm with hm | hm
      · rw [List.indexOf_append_of_mem hm]
        rcases hk with hk | hk
        · -- only the version node has a prior link, to the next level
          obtain rfl : m = n := by
            rcases List.mem_cons.mp hm with rfl | hm'
            · rfl
            · rw [hnp m hm'] at hk; cases hk
          have hkL : k ∈ L.flatten := hL.head_mem k hk
          rw [List.indexOf_append_of_not_mem (fun h => hdisj h hkL)]
          have := List.indexOf_lt_length.mpr hm
          omega
        · rw [List.indexOf_append_of_mem (List.mem_cons_of_mem _ (hd.dup_mem m hm k hk))]
          exact hd.index_lt hlev m hm k hk
      · obtain ⟨h₁, h₂⟩ := hL.closed m hm
        have hkL : k ∈ L.flatten := hk.elim (h₁ k) (h₂ k)
        rw [List.indexOf_append_of_not_mem (fun h => hdisj h hm),
          List.indexOf_append_of_not_mem (fun h => hdisj h hkL)]
        exact Nat.add_lt_add_left (hL.index_lt hLnd m hm k hk) _

/-- Every kext of a duplicate chain but its start is the target of exactly one
duplicate link from the chain. -/
theorem DupRep.countP_dup :
    ∀ {n : κ} {ds : List κ}, DupRep dup n ds → (n :: ds).Nodup → ∀ k ∈ n :: ds,
      (n :: ds).countP (fun m => dup m = some k) = if k = n then 0 else 1
  | n, [], h, _, k, hk => by
      rw [List.mem_singleton] at hk; subst hk
      simp [show dup k = none from h]
  | n, d :: ds, ⟨hd, hrest⟩, hnd, k, hk => by
      have hn : n ∉ d :: ds := (List.nodup_cons.mp hnd).1
      have hrep : DupRep dup n (d :: ds) := ⟨hd, hrest⟩
      rw [List.countP_cons]
      rcases List.mem_cons.mp hk with rfl | hk
      · -- no duplicate link leads back to the start
        have : (d :: ds).countP (fun m => dup m = some k) = 0 :=
          List.countP_eq_zero.mpr fun m hm e => hn (by
            simpa using hrep.dup_mem m (List.mem_cons_of_mem _ hm) k (by simpa using e))
        simp [this, hd, show d ≠ k from fun e => hn (e ▸ List.mem_cons_self _ _)]
      · rw [hrest.countP_dup (List.nodup_cons.mp hnd).2 k hk, hd]
        have hkn : k ≠ n := fun e => hn (by rw [← e]; exact hk)
        by_cases hkd : k = d
        · subst hkd; simp [hkn]
        · simp [hkd, Ne.symm hkd, hkn]

/-- **Every kext of a represented chain but its head is the target of exactly
one link from the chain.** -/
theorem ChainRep.countP_links :
    ∀ {h : Option κ} {L : List (List κ)}, ChainRep prior dup h L → L.flatten.Nodup →
      ∀ k ∈ L.flatten,
        L.flatten.countP (fun m => prior m = some k) +
          L.flatten.countP (fun m => dup m = some k) = if h = some k then 0 else 1
  | _, [], _, _, k, hk => by simp at hk
  | _, [] :: _, h, _, _, _ => h.elim
  | _, (n :: ds) :: L, ⟨hh, hd, hnp, hL⟩, hnd, k, hk => by
      rw [List.flatten_cons] at hnd hk ⊢
      obtain ⟨hlev, hLnd, hdisj⟩ := List.nodup_append.mp hnd
      have hds : (ds.countP fun m => prior m = some k) = 0 :=
        List.countP_eq_zero.mpr fun m hm e => by simp [hnp m hm] at e
      rw [List.countP_append, List.countP_append, List.countP_cons, hds, hh]
      rcases List.mem_append.mp hk with hk | hk
      · -- `k` in the level: only the duplicate links reach it
        have hkL : k ∉ L.flatten := fun h => hdisj hk h
        have hp : (L.flatten.countP fun m => prior m = some k) = 0 :=
          List.countP_eq_zero.mpr fun m hm e => hkL ((hL.closed m hm).1 k (by simpa using e))
        have hd' : (L.flatten.countP fun m => dup m = some k) = 0 :=
          List.countP_eq_zero.mpr fun m hm e => hkL ((hL.closed m hm).2 k (by simpa using e))
        have hn : ¬ prior n = some k := fun e => hkL (hL.head_mem k e)
        rw [hp, hd', hd.countP_dup hlev k hk]
        by_cases hkn : k = n
        · subst hkn; simp [hn]
        · simp [hn, hkn, Ne.symm hkn]
      · -- `k` below the level: the links of the level do not reach it
        have hkl : k ∉ n :: ds := fun h => hdisj h hk
        have hd' : ((n :: ds).countP fun m => dup m = some k) = 0 :=
          List.countP_eq_zero.mpr fun m hm e => hkl (List.mem_cons_of_mem _
            (hd.dup_mem m hm k (by simpa using e)))
        have ih := hL.countP_links hLnd k hk
        rw [hd']
        have hkn : some n ≠ some k := fun e => hkl (Option.some.inj e ▸ List.mem_cons_self _ _)
        by_cases hnk : prior n = some k <;> simp_all

end Shape

/-! ### Chains of a list of kexts -/

/-- `IsVersionChain v L`: the levels are nonempty, each holds one version, and
they descend strictly. -/
structure IsVersionChain (v : κ → Int) (L : List (List κ)) : Prop where
  ne_nil : ∀ l ∈ L, l ≠ []
  level_version : ∀ l ∈ L, ∀ x ∈ l, ∀ y ∈ l, v x = v y
  descending : L.Pairwise (fun a b => ∀ x ∈ a, ∀ y ∈ b, v y < v x)

/-- `IsChainOf v xs L`: `L` is a version chain holding, version by version,
exactly the kexts of `xs` in their order.  So there is one level per version
among `xs`, and the level of version `w` is `xs` filtered to `w`
(`IsChainOf.level_eq`). -/
structure IsChainOf (v : κ → Int) (xs : List κ) (L : List (List κ))
    extends IsVersionChain v L : Prop where
  filter_eq : ∀ w, L.flatten.filter (fun y => v y = w) = xs.filter (fun y => v y = w)

/-- The abstract effect of one iteration of the builder: `k` becomes a new
level at the place its version dictates, or the last duplicate of the level
of its version. -/
def insertVersion (v : κ → Int) (k : κ) : List (List κ) → List (List κ)
  | [] => [[k]]
  | [] :: L => [] :: insertVersion v k L
  | (n :: ds) :: L =>
      if v n < v k then [k] :: (n :: ds) :: L
      else if v k = v n then (n :: (ds ++ [k])) :: L
      else (n :: ds) :: insertVersion v k L

variable {v : κ → Int}

theorem IsVersionChain.tail {l : List κ} {L : List (List κ)}
    (h : IsVersionChain v (l :: L)) : IsVersionChain v L :=
  ⟨fun l' hl' => h.ne_nil l' (List.mem_cons_of_mem _ hl'),
    fun l' hl' => h.level_version l' (List.mem_cons_of_mem _ hl'),
    (List.pairwise_cons.mp h.descending).2⟩

/-- Below a version node, every kext of the chain has a smaller version. -/
theorem IsVersionChain.lt_of_mem {n : κ} {ds : List κ} {L : List (List κ)}
    (h : IsVersionChain v ((n :: ds) :: L)) : ∀ y ∈ L.flatten, v y < v n := by
  intro y hy
  obtain ⟨b, hb, hyb⟩ := List.mem_flatten.mp hy
  exact (List.pairwise_cons.mp h.descending).1 b hb n (List.mem_cons_self _ _) y hyb

/-- The version node at the head of a chain has the highest version. -/
theorem IsVersionChain.le_head {n : κ} {ds : List κ} {L : List (List κ)}
    (h : IsVersionChain v ((n :: ds) :: L)) : ∀ y ∈ ((n :: ds) :: L).flatten, v y ≤ v n := by
  intro y hy
  rcases List.mem_append.mp (List.flatten_cons ▸ hy) with hy | hy
  · exact (h.level_version _ (List.mem_cons_self _ _) y hy n (List.mem_cons_self _ _)).le
  · exact (h.lt_of_mem y hy).le

/-- A represented version chain is headed by its highest version. -/
theorem ChainRep.le_head {prior dup : κ → Option κ} {h : Option κ} {L : List (List κ)}
    (hc : ChainRep prior dup h L) (hv : IsVersionChain v L) {k : κ} (hk : k ∈ L.flatten) :
    ∃ n, h = some n ∧ v k ≤ v n :=
  match L, hc with
  | [], _ => absurd hk (List.not_mem_nil _)
  | [] :: _, hc => hc.elim
  | (n :: _) :: _, ⟨hh, _⟩ => ⟨n, hh, hv.le_head k hk⟩

/-- An insertion adds `k` to the kexts of the chain and moves none. -/
theorem flatten_insertVersion_perm {k : κ} : ∀ L : List (List κ),
    List.Perm (insertVersion v k L).flatten (k :: L.flatten)
  | [] => by simp [insertVersion]
  | [] :: L => by simpa [insertVersion] using flatten_insertVersion_perm L
  | (n :: ds) :: L => by
      unfold insertVersion
      split_ifs
      · exact .refl _
      · have h : List.Perm ((n :: ds) ++ k :: L.flatten) (k :: ((n :: ds) ++ L.flatten)) :=
          List.perm_middle
        simpa using h
      · simpa using ((flatten_insertVersion_perm L).append_left (n :: ds)).trans List.perm_middle

theorem mem_insertVersion {k y : κ} {L : List (List κ)} :
    y ∈ (insertVersion v k L).flatten ↔ y = k ∨ y ∈ L.flatten := by
  rw [(flatten_insertVersion_perm L).mem_iff, List.mem_cons]

theorem isVersionChain_insertVersion {k : κ} :
    ∀ {L : List (List κ)}, IsVersionChain v L → IsVersionChain v (insertVersion v k L)
  | [], _ => ⟨by simp [insertVersion], by simp [insertVersion], by simp [insertVersion]⟩
  | [] :: _, h => (h.ne_nil [] (List.mem_cons_self _ _) rfl).elim
  | (n :: ds) :: L, h => by
      have hlt := h.lt_of_mem
      have hn : ∀ x ∈ n :: ds, v x = v n := fun x hx =>
        h.level_version _ (List.mem_cons_self _ _) x hx n (List.mem_cons_self _ _)
      unfold insertVersion
      split_ifs with h1 h2
      · refine ⟨?_, ?_, List.Pairwise.cons ?_ h.descending⟩
        · simpa using h.ne_nil
        · simpa using h.level_version
        · intro b hb x hx y hy
          rw [List.mem_singleton.mp hx]
          rcases List.mem_cons.mp hb with rfl | hb
          · rw [hn y hy]; exact h1
          · exact (hlt y (List.mem_flatten.mpr ⟨b, hb, hy⟩)).trans h1
      · refine ⟨?_, ?_, ?_⟩
        · intro l hl
          rcases List.mem_cons.mp hl with rfl | hl
          · simp
          · exact h.ne_nil l (List.mem_cons_of_mem _ hl)
        · intro l hl
          rcases List.mem_cons.mp hl with rfl | hl
          · have : ∀ x ∈ n :: (ds ++ [k]), v x = v n := by
              intro x hx
              simp only [List.mem_cons, List.mem_append, List.mem_singleton, List.not_mem_nil,
              or_false] at hx
              rcases hx with rfl | hx | rfl
              · rfl
              · exact hn x (List.mem_cons_of_mem _ hx)
              · exact h2
            intro x hx y hy; rw [this x hx, this y hy]
          · exact h.level_version l (List.mem_cons_of_mem _ hl)
        · refine List.Pairwise.cons (fun b hb x hx y hy => ?_) h.tail.descending
          have hx' : v x = v n := by
            simp only [List.mem_cons, List.mem_append, List.mem_singleton, List.not_mem_nil,
              or_false] at hx
            rcases hx with rfl | hx | rfl
            · rfl
            · exact hn x (List.mem_cons_of_mem _ hx)
            · exact h2
          rw [hx']; exact hlt y (List.mem_flatten.mpr ⟨b, hb, hy⟩)
      · have ih : IsVersionChain v (insertVersion v k L) := isVersionChain_insertVersion h.tail
        have hk : v k < v n := by omega
        refine ⟨?_, ?_, List.Pairwise.cons (fun b hb x hx y hy => ?_) ih.descending⟩
        · intro l hl
          rcases List.mem_cons.mp hl with rfl | hl
          · simp
          · exact ih.ne_nil l hl
        · intro l hl
          rcases List.mem_cons.mp hl with rfl | hl
          · exact h.level_version _ (List.mem_cons_self _ _)
          · exact ih.level_version l hl
        · rw [hn x hx]
          rcases mem_insertVersion.mp (List.mem_flatten.mpr ⟨b, hb, hy⟩) with rfl | hy
          · exact hk
          · exact hlt y hy

/-- Adding `k` adds it, at the end, to the kexts of its version, and changes no
other version. -/
theorem filter_insertVersion {k : κ} (w : Int) :
    ∀ {L : List (List κ)}, IsVersionChain v L →
      (insertVersion v k L).flatten.filter (fun y => v y = w) =
        L.flatten.filter (fun y => v y = w) ++ if v k = w then [k] else []
  | [], _ => by by_cases hw : v k = w <;> simp [insertVersion, hw]
  | [] :: _, h => (h.ne_nil [] (List.mem_cons_self _ _) rfl).elim
  | (n :: ds) :: L, h => by
      have hlt := h.lt_of_mem
      have hn : ∀ x ∈ n :: ds, v x = v n := fun x hx =>
        h.level_version _ (List.mem_cons_self _ _) x hx n (List.mem_cons_self _ _)
      have hnone : ∀ u, v n ≤ u → L.flatten.filter (fun y => v y = u) = [] := by
        intro u hu
        refine List.filter_eq_nil_iff.mpr fun y hy => ?_
        have := hlt y hy; simp only [decide_eq_true_eq]; omega
      by_cases h1 : v n < v k
      · rw [insertVersion, if_pos h1, List.flatten_cons, List.filter_append]
        by_cases hw : v k = w
        · subst hw
          have hds : (n :: ds).filter (fun y => v y = v k) = [] :=
            List.filter_eq_nil_iff.mpr fun y hy => by
              simp only [decide_eq_true_eq, hn y hy]; omega
          rw [List.flatten_cons, List.filter_append, hds, hnone _ h1.le]; simp
        · simp [hw]
      by_cases h2 : v k = v n
      · have e : (n :: (ds ++ [k])) ++ L.flatten = (n :: ds) ++ ([k] ++ L.flatten) := by simp
        rw [insertVersion, if_neg h1, if_pos h2, List.flatten_cons, List.flatten_cons, e,
          List.filter_append, List.filter_append, List.filter_append, List.append_assoc]
        by_cases hw : v k = w
        · subst hw; rw [hnone _ h2.ge]; simp
        · simp [hw]
      · rw [insertVersion, if_neg h1, if_neg h2, List.flatten_cons, List.flatten_cons,
          List.filter_append, List.filter_append, filter_insertVersion w h.tail, List.append_assoc]

theorem isChainOf_nil : IsChainOf v [] [] :=
  ⟨⟨by simp, by simp, List.Pairwise.nil⟩, by simp⟩

/-- **One builder step on the abstract chain.** -/
theorem isChainOf_insertVersion {xs : List κ} {L : List (List κ)} {k : κ}
    (h : IsChainOf v xs L) : IsChainOf v (xs ++ [k]) (insertVersion v k L) :=
  ⟨isVersionChain_insertVersion h.toIsVersionChain, fun w => by
    rw [filter_insertVersion w h.toIsVersionChain, h.filter_eq, List.filter_append]
    by_cases hw : v k = w <;> simp [hw]⟩

/-- The level of a version is the kexts of that version. -/
theorem IsVersionChain.filter_flatten :
    ∀ {L : List (List κ)}, IsVersionChain v L → ∀ l ∈ L, ∀ x ∈ l,
      L.flatten.filter (fun y => v y = v x) = l
  | [], _, l, hl, _, _ => by simp at hl
  | l₀ :: L, h, l, hl, x, hx => by
      obtain ⟨n, ds, rfl⟩ : ∃ n ds, l₀ = n :: ds :=
        List.exists_cons_of_ne_nil (h.ne_nil l₀ (List.mem_cons_self _ _))
      have hlt := h.lt_of_mem
      have hn : ∀ y ∈ n :: ds, v y = v n := fun y hy =>
        h.level_version _ (List.mem_cons_self _ _) y hy n (List.mem_cons_self _ _)
      rw [List.flatten_cons, List.filter_append]
      rcases List.mem_cons.mp hl with rfl | hl
      · rw [hn x hx, List.filter_eq_self.mpr (fun y hy => by simp [hn y hy]),
          List.filter_eq_nil_iff.mpr (fun y hy => by have := hlt y hy; simp; omega),
          List.append_nil]
      · have hx' : v x < v n := hlt x (List.mem_flatten.mpr ⟨l, hl, hx⟩)
        rw [List.filter_eq_nil_iff.mpr (fun y hy => by simp [hn y hy]; omega), List.nil_append]
        exact h.tail.filter_flatten l hl x hx

/-- In the chain of `xs`, the level holding `x` is `xs` filtered to the version
of `x`: the version node is the first kext of that version in `xs`, and its
duplicates the others in their order. -/
theorem IsChainOf.level_eq {xs : List κ} {L : List (List κ)} (h : IsChainOf v xs L) :
    ∀ l ∈ L, ∀ x ∈ l, l = xs.filter (fun y => v y = v x) := fun l hl x hx => by
  rw [← h.filter_eq, h.filter_flatten l hl x hx]

/-- Three kexts inserted in order, the first two of version `1` and the third of
version `2`: the chain is `[[2], [0, 1]]`, `0` the version node of version `1`
and `1` its duplicate. -/
theorem IsChainOf.level_eq_three :
    IsChainOf (fun k : Fin 3 => if k = 2 then 2 else 1) [0, 1, 2] [[2], [0, 1]] ∧
      ∀ l ∈ [[(2 : Fin 3)], [0, 1]], ∀ x ∈ l,
        l = [0, 1, 2].filter (fun y => (if y = 2 then (2 : Int) else 1) = if x = 2 then 2 else 1) :=
  have h : IsChainOf (fun k : Fin 3 => if k = 2 then 2 else 1) [0, 1, 2] [[2], [0, 1]] :=
    isChainOf_insertVersion (isChainOf_insertVersion (isChainOf_insertVersion (k := 0) isChainOf_nil))
  ⟨h, h.level_eq⟩

theorem IsChainOf.mem_iff {xs : List κ} {L : List (List κ)} (h : IsChainOf v xs L) (x : κ) :
    x ∈ L.flatten ↔ x ∈ xs := by
  have := congrArg (x ∈ ·) (h.filter_eq (v x))
  simpa using this

/-- A version chain has no more levels than kexts. -/
theorem IsVersionChain.length_le {L : List (List κ)} (h : IsVersionChain v L) :
    L.length ≤ L.flatten.length := by
  induction L with
  | nil => simp
  | cons l L ih =>
      have := List.length_pos.mpr (h.ne_nil l (List.mem_cons_self _ _))
      simp only [List.length_cons, List.flatten_cons, List.length_append]
      have := ih h.tail
      omega

/-- The chain of a list without repetitions holds each kext once. -/
theorem IsChainOf.nodup [DecidableEq κ] {xs : List κ} {L : List (List κ)} (h : IsChainOf v xs L)
    (hxs : xs.Nodup) : L.flatten.Nodup := by
  rw [List.nodup_iff_count_le_one] at hxs ⊢
  intro x
  have := congrArg (List.count x) (h.filter_eq (v x))
  rw [List.count_filter (by simp), List.count_filter (by simp)] at this
  rw [this]; exact hxs x

/-! ### Walking a chain -/

section Walk

variable {ι : Type}

/-- The inner loop of the manager's chain walks, with fuel:
`while (dupKext) { visit(dupKext); dupKext = KXKextGetDuplicateVersionKext(dupKext); }`. -/
def walkDuplicateChain (visit : Manager ι κ → κ → Manager ι κ) :
    Nat → Manager ι κ → Option κ → Manager ι κ
  | 0, s, _ => s
  | _ + 1, s, none => s
  | fuel + 1, s, some dupKext =>
      let s := visit s dupKext
      walkDuplicateChain visit fuel s (s.duplicateVersion dupKext)

/-- The outer loop, with fuel:
`while (thisKext) { body(thisKext); thisKext = KXKextGetPriorVersionKext(thisKext); }`. -/
def walkVersionChain (body : Manager ι κ → κ → Manager ι κ) :
    Nat → Manager ι κ → Option κ → Manager ι κ
  | 0, s, _ => s
  | _ + 1, s, none => s
  | fuel + 1, s, some thisKext =>
      let s := body s thisKext
      walkVersionChain body fuel s (s.priorVersion thisKext)

/-- A visit that leaves both link maps alone. -/
def KeepsLinks (visit : Manager ι κ → κ → Manager ι κ) : Prop :=
  ∀ s k, (visit s k).priorVersion = s.priorVersion ∧
    (visit s k).duplicateVersion = s.duplicateVersion

variable {visit : Manager ι κ → κ → Manager ι κ}

theorem KeepsLinks.foldl (hv : KeepsLinks visit) (xs : List κ) (s : Manager ι κ) :
    (xs.foldl visit s).priorVersion = s.priorVersion ∧
      (xs.foldl visit s).duplicateVersion = s.duplicateVersion := by
  induction xs generalizing s with
  | nil => exact ⟨rfl, rfl⟩
  | cons x xs ih => exact ⟨(ih _).1.trans (hv s x).1, (ih _).2.trans (hv s x).2⟩

/-- Along a represented duplicate chain the inner loop visits exactly its
kexts, in order. -/
theorem walkDuplicateChain_eq (hv : KeepsLinks visit) {ds : List κ} :
    ∀ {fuel : Nat} (s : Manager ι κ) {n : κ}, DupRep s.duplicateVersion n ds →
      ds.length ≤ fuel → walkDuplicateChain visit fuel s (s.duplicateVersion n) = ds.foldl visit s := by
  induction ds with
  | nil =>
      intro fuel s n hd _
      rw [show s.duplicateVersion n = none from hd]
      cases fuel <;> rfl
  | cons d ds ih =>
      intro fuel s n hd hf
      obtain ⟨f, rfl⟩ : ∃ f, fuel = f + 1 := ⟨fuel - 1, by simp at hf; omega⟩
      rw [hd.1]
      exact ih (visit s d) (by rw [(hv s d).2]; exact hd.2) (by simpa using hf)

/-- Started at a kext, the inner loop visits it and then its duplicates. -/
theorem walkDuplicateChain_some (hv : KeepsLinks visit) {ds : List κ} {fuel : Nat}
    (s : Manager ι κ) {n : κ} (hd : DupRep s.duplicateVersion n ds) (hf : ds.length < fuel) :
    walkDuplicateChain visit fuel s (some n) = (n :: ds).foldl visit s := by
  obtain ⟨f, rfl⟩ : ∃ f, fuel = f + 1 := ⟨fuel - 1, by omega⟩
  exact walkDuplicateChain_eq hv (visit s n) (by rw [(hv s n).2]; exact hd) (by omega)

/-- **A walk visits its chain.**  If the body of the outer loop visits a
version node and its duplicates as the inner loop does, then along a
represented chain the two loops visit exactly the kexts of the chain, level
by level. -/
theorem walkVersionChain_eq (hv : KeepsLinks visit) {body : Manager ι κ → κ → Manager ι κ}
    (hb : ∀ s n ds, DupRep s.duplicateVersion n ds → (n :: ds).Nodup →
      body s n = (n :: ds).foldl visit s) :
    ∀ (fuel : Nat) (s : Manager ι κ) {h : Option κ} {L : List (List κ)},
      ChainRep s.priorVersion s.duplicateVersion h L → L.flatten.Nodup → L.length ≤ fuel →
      walkVersionChain body fuel s h = L.flatten.foldl visit s
  | fuel, s, h, [], hc, _, _ => by
      rw [show h = none from hc]; cases fuel <;> rfl
  | _, _, _, [] :: _, hc, _, _ => hc.elim
  | 0, _, _, (_ :: _) :: _, _, _, hf => absurd hf (by simp)
  | f + 1, s, h, (n :: ds) :: L, ⟨hh, hd, _, hL⟩, hnd, hf => by
      have hnd' : (n :: ds ++ L.flatten).Nodup := by simpa using hnd
      have hk := hv.foldl (n :: ds) s
      rw [hh]
      simp only [walkVersionChain]
      rw [hb s n ds hd (List.nodup_append.mp hnd').1, hk.1,
        walkVersionChain_eq hv hb f _ (by rw [hk.1, hk.2]; exact hL)
          (List.nodup_append.mp hnd').2.1 (by simpa using hf), List.flatten_cons, List.foldl_append]

/-- A view that every visit keeps is kept by the inner loop. -/
theorem walkDuplicateChain_invariant {β : Type} (g : Manager ι κ → β)
    (hg : ∀ s k, g (visit s k) = g s) :
    ∀ (fuel : Nat) (s : Manager ι κ) (p : Option κ), g (walkDuplicateChain visit fuel s p) = g s
  | 0, _, _ => rfl
  | _ + 1, _, none => rfl
  | fuel + 1, s, some d => (walkDuplicateChain_invariant g hg fuel _ _).trans (hg s d)

/-- A view that the body keeps is kept by the outer loop. -/
theorem walkVersionChain_invariant {β : Type} (g : Manager ι κ → β)
    {body : Manager ι κ → κ → Manager ι κ} (hg : ∀ s k, g (body s k) = g s) :
    ∀ (fuel : Nat) (s : Manager ι κ) (p : Option κ), g (walkVersionChain body fuel s p) = g s
  | 0, _, _ => rfl
  | _ + 1, _, none => rfl
  | fuel + 1, s, some k => (walkVersionChain_invariant g hg fuel _ _).trans (hg s k)

end Walk

/-! ### Reachability from the heads -/

variable {ι : Type} [DecidableEq ι]

/-- `Reaches s I k`: `k` is reached from the head stored for `I` in
`candidateKexts` by following `priorVersion` and `duplicateVersion` links. -/
inductive Reaches (s : Manager ι κ) (I : ι) : κ → Prop
  | head {k : κ} : s.candidateKexts.lookup I = some k → Reaches s I k
  | prior {k k' : κ} : Reaches s I k → s.priorVersion k = some k' → Reaches s I k'
  | duplicate {k k' : κ} : Reaches s I k → s.duplicateVersion k = some k' → Reaches s I k'

theorem DupRep.reaches {s : Manager ι κ} {I : ι} :
    ∀ {n : κ} {ds : List κ}, DupRep s.duplicateVersion n ds → Reaches s I n →
      ∀ k ∈ ds, Reaches s I k
  | _, [], _, _, k, hk => by simp at hk
  | _, d :: ds, ⟨hd, hrest⟩, hn, k, hk => by
      have hd' : Reaches s I d := hn.duplicate hd
      rcases List.mem_cons.mp hk with rfl | hk
      · exact hd'
      · exact hrest.reaches hd' k hk

theorem ChainRep.reaches {s : Manager ι κ} {I : ι} :
    ∀ {h : Option κ} {L : List (List κ)}, ChainRep s.priorVersion s.duplicateVersion h L →
      (∀ n, h = some n → Reaches s I n) → ∀ k ∈ L.flatten, Reaches s I k
  | _, [], _, _, k, hk => by simp at hk
  | _, [] :: _, h, _, _, _ => h.elim
  | _, (n :: ds) :: L, ⟨hh, hd, _, hL⟩, hr, k, hk => by
      have hn : Reaches s I n := hr n hh
      rw [List.flatten_cons, List.mem_append] at hk
      rcases hk with hk | hk
      · rcases List.mem_cons.mp hk with rfl | hk
        · exact hn
        · exact hd.reaches hn k hk
      · exact hL.reaches (fun n' hn' => hn.prior hn') k hk

/-- **Reachability is membership in the represented chain.** -/
theorem reaches_iff_mem_of_chainRep {s : Manager ι κ} {I : ι} {L : List (List κ)}
    (hc : ChainRep s.priorVersion s.duplicateVersion (s.candidateKexts.lookup I) L) (k : κ) :
    Reaches s I k ↔ k ∈ L.flatten := by
  refine ⟨fun h => ?_, hc.reaches (fun n hn => .head hn) k⟩
  induction h with
  | head hk => exact hc.head_mem _ hk
  | prior _ hk ih => exact (hc.closed _ ih).1 _ hk
  | duplicate _ hk ih => exact (hc.closed _ ih).2 _ hk

end KextManager
