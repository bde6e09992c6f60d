/-
KextManager/Gate.lean

The clear gate: `KXKextManagerDisableClearRelationships`,
`KXKextManagerEnableClearRelationships`, `KXKextManagerClearRelationships`, and
`KXKextManagerResetAllRepositories`, which resets every repository inside a
disabled window.

`Gate` says what the gate is for: a disable depth that cannot go below zero,
and a deferred clear request, which exists only while the depth is positive.  A
request at depth 0 tears the structure down at once; one at a positive depth is
deferred; the call that brings the depth back to 0 performs the deferred
request, once, and no other call performs it.  The manager's counter is a C
`int`: it refines the gate's depth as long as the depth stays below `2^31`
(`Gate.Fits`), and along every run of the gate's calls that does, the counter
and flag are the gate's depth and deferred request and the ghost count of
teardowns grows by the gate's teardowns (`GateCall.run_refines`).

Main results: `GateCall.run_gate`, for every run below the `int` limit from any
state the gate describes (the manager's creation leaves it at depth 0 with
nothing deferred); and `GateCall.run_disableClearRelationships_overflow`:
`2^31` disables make the count negative, after which a clear request tears the
structure down at once.
-/
import KextManager.Prepare

namespace KextManager

/-! ### The gate, as specified -/

/-- The gate: the disable depth, and whether a clear request is deferred; a
request is deferred only inside a disabled window. -/
structure Gate where
  depth : Nat
  pending : Bool
  pending_pos : pending = true → 0 < depth

/-- The calls the gate answers. -/
inductive Gate.Call where
  | disable
  | enable
  | clear
  deriving DecidableEq, Repr

namespace Gate

/-- Depth 0, nothing deferred: the gate of a new manager. -/
def idle : Gate := ⟨0, false, nofun⟩

/-- One call: the gate after it, and the number of teardowns it performs. -/
def step (g : Gate) : Call → Gate × Nat
  | .disable => (⟨g.depth + 1, g.pending, fun _ => Nat.succ_pos _⟩, 0)
  | .clear =>
      if h : g.depth = 0 then (idle, 1)
      else (⟨g.depth, true, fun _ => Nat.pos_of_ne_zero h⟩, 0)
  | .enable =>
      if h : g.depth = 1 then (idle, if g.pending then 1 else 0)
      else (⟨g.depth - 1, g.pending, fun hp => by have := g.pending_pos hp; omega⟩, 0)

/-- A run of calls: the gate after it, and the teardowns along it. -/
def run : List Call → Gate → Gate × Nat
  | [], g => (g, 0)
  | c :: cs, g => ((run cs (g.step c).1).1, (g.step c).2 + (run cs (g.step c).1).2)

theorem run_append (as bs : List Call) (g : Gate) :
    run (as ++ bs) g = ((run bs (run as g).1).1, (run as g).2 + (run bs (run as g).1).2) := by
  induction as generalizing g with
  | nil => simp [run]
  | cons a as ih => rw [List.cons_append, run, ih, run, Nat.add_assoc]

/-! ### What the gate does -/

/-- **A request at depth 0 tears the structure down at once.** -/
theorem step_clear_of_depth_eq_zero {g : Gate} (h : g.depth = 0) : g.step .clear = (idle, 1) :=
  dif_pos h

/-- **A request at a positive depth is only deferred.** -/
theorem step_clear_of_pos {g : Gate} (h : 0 < g.depth) :
    (g.step .clear).1.depth = g.depth ∧ (g.step .clear).1.pending = true ∧
      (g.step .clear).2 = 0 := by
  simp [step, Nat.pos_iff_ne_zero.mp h]

/-- **Re-enabling performs a deferred request exactly when it brings the depth
to 0**, and then performs it once. -/
theorem step_enable_teardowns (g : Gate) :
    (g.step .enable).2 = if g.depth = 1 ∧ g.pending = true then 1 else 0 := by
  by_cases h : g.depth = 1 <;> simp [step, h]

/-- A run that stays inside a window, the depth positive after every call. -/
def InWindow : List Call → Gate → Prop
  | [], _ => True
  | c :: cs, g => 0 < (g.step c).1.depth ∧ InWindow cs (g.step c).1

/-- A call that leaves the depth positive performs no teardown and keeps a
deferred request. -/
theorem step_of_pos {g : Gate} (c : Call) (h : 0 < (g.step c).1.depth) :
    (g.step c).2 = 0 ∧ (g.pending = true → (g.step c).1.pending = true) := by
  cases c with
  | disable => exact ⟨rfl, id⟩
  | clear =>
      by_cases h0 : g.depth = 0
      · simp [step, h0, idle] at h
      · simp [step, h0]
  | enable =>
      by_cases h1 : g.depth = 1
      · simp [step, h1, idle] at h
      · simp [step, h1]

/-- **No teardown inside a window**, however many requests are deferred there:
a deferred request survives every call that leaves the depth positive. -/
theorem run_inWindow : ∀ (cs : List Call) (g : Gate), InWindow cs g →
    (run cs g).2 = 0 ∧ (g.pending = true → (run cs g).1.pending = true)
  | [], _, _ => ⟨rfl, id⟩
  | c :: cs, g, ⟨h, hw⟩ => by
      obtain ⟨ht, hp⟩ := step_of_pos c h
      obtain ⟨ht', hp'⟩ := run_inWindow cs _ hw
      exact ⟨by simp only [run, ht, ht'], fun h => hp' (hp h)⟩

/-- The depth stays below `2^31` after every call of the run: the nesting the
manager's `int` count can hold. -/
def Fits : List Call → Gate → Prop
  | [], _ => True
  | c :: cs, g => (g.step c).1.depth < 2 ^ 31 ∧ Fits cs (g.step c).1

instance decidableFits : ∀ (cs : List Call) (g : Gate), Decidable (Fits cs g)
  | [], _ => isTrue trivial
  | _ :: cs, _ => @instDecidableAnd _ _ (Nat.decLt _ _) (decidableFits cs _)

theorem fits_append (as bs : List Call) (g : Gate) :
    Fits (as ++ bs) g ↔ Fits as g ∧ Fits bs (run as g).1 := by
  induction as generalizing g with
  | nil => simp [Fits, run]
  | cons a as ih =>
      show (_ ∧ Fits (as ++ bs) _) ↔ (_ ∧ Fits as _) ∧ Fits bs (run as (g.step a).1).1
      rw [ih, and_assoc]

/-- The deferred request of the specification: disable, request, enable tears
down once, after the enable. -/
example : (idle.run [.disable, .clear, .enable]).2 = 1 := by decide

/-- Disabling twice takes two enables before the request is performed. -/
example : (idle.run [.disable, .disable, .clear, .enable]).2 = 0 ∧
    (idle.run [.disable, .disable, .clear, .enable, .enable]).2 = 1 := by decide

/-- A window of requests: disable, any number of requests, enable. -/
def window (n : Nat) : List Call := .disable :: List.replicate n .clear ++ [.enable]

theorem run_replicate_clear_of_pos (n : Nat) {g : Gate} (h : 0 < g.depth) :
    (run (List.replicate n .clear) g).1.depth = g.depth ∧ (run (List.replicate n .clear) g).2 = 0 ∧
      (run (List.replicate n .clear) g).1.pending = (g.pending || decide (0 < n)) := by
  induction n generalizing g with
  | zero => simp [run]
  | succ n ih =>
      obtain ⟨hd, hp, ht⟩ := step_clear_of_pos h
      obtain ⟨hd', ht', hp'⟩ := ih (hd ▸ h : 0 < (g.step .clear).1.depth)
      simp only [List.replicate_succ, run, hd', hd, ht, ht', hp', hp]
      simp

theorem step_enable_depth (g : Gate) : (g.step .enable).1.depth = g.depth - 1 := by
  by_cases h : g.depth = 1 <;> simp [step, h, idle]

/-- **A window returns to the depth it was opened at**, and performs one
teardown if it was opened at depth 0 and a request was made in it. -/
theorem run_window (n : Nat) (g : Gate) :
    (run (window n) g).1.depth = g.depth ∧
      (run (window n) g).2 = if g.depth = 0 ∧ 0 < n then 1 else 0 := by
  obtain ⟨hd, ht, hp⟩ := run_replicate_clear_of_pos n (g := (g.step .disable).1)
    (Nat.succ_pos g.depth)
  rw [window, List.cons_append, run, run_append, run, run]
  simp only [ht, step_enable_depth, step_enable_teardowns, hd, hp]
  refine ⟨rfl, ?_⟩
  by_cases h0 : g.depth = 0
  · have hp0 : g.pending = false := by
      cases hp : g.pending
      · rfl
      · exact absurd (g.pending_pos hp) (by omega)
    simp [step, h0, hp0]
  · simp [step, h0]

theorem fits_replicate_clear (n : Nat) {g : Gate} (h : 0 < g.depth) (hd : g.depth < 2 ^ 31) :
    Fits (List.replicate n .clear) g := by
  induction n generalizing g with
  | zero => trivial
  | succ n ih =>
      obtain ⟨hd', -, -⟩ := step_clear_of_pos h
      exact ⟨hd' ▸ hd, ih (hd' ▸ h) (hd' ▸ hd)⟩

/-- A window opened below `INT_MAX` fits the `int` count. -/
theorem fits_window (n : Nat) (g : Gate) (h : g.depth + 1 < 2 ^ 31) : Fits (window n) g := by
  obtain ⟨hd, -, -⟩ := run_replicate_clear_of_pos n (g := (g.step .disable).1) (Nat.succ_pos g.depth)
  rw [window, List.cons_append, Fits, fits_append]
  refine ⟨h, fits_replicate_clear n (Nat.succ_pos _) h, ?_, trivial⟩
  rw [step_enable_depth, hd]
  exact lt_of_le_of_lt (Nat.sub_le _ _) h

end Gate

/-! ### The manager's calls on the gate -/

namespace Manager

variable {ι κ : Type} [DecidableEq κ]

/-- `KXKextManagerResetAllRepositories`: every repository is reset inside a
disabled window.  `reset r` is the number of clear requests the reset of `r`
issues.

Modelled from the spec: `KXKextRepositoryReset` is not under src/; only its
clear requests are modelled. -/
def resetAllRepositories (reset : Repository κ → Nat) (s : Manager ι κ) : Manager ι κ :=
  let s := s.disableClearRelationships
  (s.repositoryList.list.foldl (fun s r => clearRelationships^[reset r] s) s).enableClearRelationships

/-- The clear requests the resets of `rs` issue, together. -/
def clearRequests (reset : Repository κ → Nat) : List (Repository κ) → Nat
  | [] => 0
  | r :: rs => reset r + clearRequests reset rs

theorem foldl_iterate_clearRelationships (reset : Repository κ → Nat) :
    ∀ (rs : List (Repository κ)) (s : Manager ι κ),
      rs.foldl (fun s r => clearRelationships^[reset r] s) s =
        clearRelationships^[clearRequests reset rs] s
  | [], _ => rfl
  | r :: rs, s => by
      rw [List.foldl_cons, foldl_iterate_clearRelationships reset rs, clearRequests, Nat.add_comm,
        Function.iterate_add_apply]

end Manager

variable {ι κ : Type} [DecidableEq κ]

/-- The manager's answer to a gate call. -/
def Gate.Call.apply : Gate.Call → Manager ι κ → Manager ι κ
  | .disable => Manager.disableClearRelationships
  | .enable => Manager.enableClearRelationships
  | .clear => Manager.clearRelationships

/-- The manager's answer to a run of gate calls. -/
def Gate.Call.runOn : List Gate.Call → Manager ι κ → Manager ι κ
  | [], s => s
  | c :: cs, s => runOn cs (c.apply s)

/-- The manager's counter, read as the `int` it is, and its flag are the
gate's depth and deferred request. -/
def Gate.Abstracts (g : Gate) (s : Manager ι κ) : Prop :=
  s.clearRelationshipsDisableCount.toInt = g.depth ∧ s.needsClearRelationships = g.pending

namespace Gate

theorem Abstracts.enable {g : Gate} {s : Manager ι κ} (hg : g.Abstracts s) :
    (g.step .enable).1.Abstracts s.enableClearRelationships ∧
      s.enableClearRelationships.teardownCount = s.teardownCount + (g.step .enable).2 := by
  obtain ⟨hc, hn⟩ := hg
  have hd : s.enableClearRelationships.clearRelationshipsDisableCount.toInt =
      ((g.step .enable).1.depth : Int) := by
    rw [Manager.enableClearRelationships_toInt, hc, step_enable_depth]; split_ifs <;> omega
  have hp0 : g.depth = 0 → g.pending = false := fun h0 => by
    cases hp : g.pending
    · rfl
    · exact absurd (g.pending_pos hp) (by omega)
  refine ⟨⟨hd, ?_⟩, ?_⟩
  · rw [Manager.enableClearRelationships_needsClearRelationships, hd, hn]
    by_cases h1 : g.depth = 1
    · simp [step, h1, idle]
    · by_cases h0 : g.depth = 0
      · simp [step, h0, hp0 h0]
      · have : 0 < g.depth - 1 := by omega
        simp [step, h1, this]
  · rw [Manager.enableClearRelationships_teardownCount, hd, hn, step_enable_teardowns,
      step_enable_depth]
    by_cases h0 : g.depth = 0
    · simp [h0, hp0 h0]
    · by_cases h1 : g.depth = 1
      · simp [h1]
      · simp [h1]; omega

/-- **One call on the manager is one call on the gate**, when the depth it
leaves fits the `int` count. -/
theorem Abstracts.step {g : Gate} {s : Manager ι κ} (hg : g.Abstracts s) (c : Call)
    (hf : (g.step c).1.depth < 2 ^ 31) :
    (g.step c).1.Abstracts (c.apply s) ∧
      (c.apply s).teardownCount = s.teardownCount + (g.step c).2 := by
  cases c with
  | disable =>
      refine ⟨⟨?_, hg.2⟩, rfl⟩
      rw [Call.apply, Manager.disableClearRelationships_toInt _ (by rw [hg.1]; exact_mod_cast hf), hg.1]
      rfl
  | enable => exact hg.enable
  | clear =>
      obtain ⟨hc, -⟩ := hg
      by_cases h0 : g.depth = 0
      · simp [Call.apply, Gate.step, h0, hc, idle, Abstracts]
      · simp [Call.apply, Gate.step, h0, hc, Abstracts, Nat.pos_iff_ne_zero.mpr h0]

/-- Along a run of calls whose depth fits the `int` count. -/
theorem Abstracts.run {g : Gate} {s : Manager ι κ} (hg : g.Abstracts s) (cs : List Call)
    (hf : Fits cs g) :
    (g.run cs).1.Abstracts (Call.runOn cs s) ∧
      (Call.runOn cs s).teardownCount = s.teardownCount + (g.run cs).2 := by
  induction cs generalizing g s with
  | nil => exact ⟨hg, rfl⟩
  | cons c cs ih =>
      obtain ⟨hg', ht⟩ := hg.step c hf.1
      obtain ⟨hg'', ht'⟩ := ih hg' hf.2
      exact ⟨hg'', by rw [Call.runOn, ht', ht, Gate.run, Nat.add_assoc]⟩

end Gate

omit [DecidableEq κ] in
theorem Gate.Call.runOn_replicate_clear [DecidableEq κ] (n : Nat) (s : Manager ι κ) :
    Call.runOn (List.replicate n .clear) s = Manager.clearRelationships^[n] s := by
  induction n generalizing s with
  | zero => rfl
  | succ n ih => rw [List.replicate_succ, runOn, ih, Function.iterate_succ_apply]; rfl

theorem Gate.Call.runOn_repositoryList :
    ∀ (cs : List Gate.Call) (s : Manager ι κ), (runOn cs s).repositoryList = s.repositoryList
  | [], _ => rfl
  | c :: cs, s => by
      rw [runOn, runOn_repositoryList cs]
      cases c <;> simp [apply, Manager.disableClearRelationships]

theorem Gate.Call.runOn_append (as bs : List Gate.Call) (s : Manager ι κ) :
    Call.runOn (as ++ bs) s = Call.runOn bs (Call.runOn as s) := by
  induction as generalizing s with
  | nil => rfl
  | cons a as ih => exact ih _

/-- A reset of all repositories is a window of all their requests. -/
theorem Manager.resetAllRepositories_eq (reset : Repository κ → Nat) (s : Manager ι κ) :
    s.resetAllRepositories reset =
      Gate.Call.runOn (Gate.window (Manager.clearRequests reset s.repositoryList.list)) s := by
  rw [Manager.resetAllRepositories, Manager.foldl_iterate_clearRelationships, Gate.window,
    List.cons_append, Gate.Call.runOn, Gate.Call.runOn_append, Gate.Call.runOn_replicate_clear]
  rfl

/-! ### Runs of the manager's gate calls -/

/-- The manager calls that drive the gate. -/
inductive GateCall (κ : Type) where
  | disableClearRelationships
  | enableClearRelationships
  | clearRelationships
  | resetAllRepositories (reset : Repository κ → Nat)

namespace GateCall

/-- The effect of one call. -/
def apply : GateCall κ → Manager ι κ → Manager ι κ
  | disableClearRelationships, s => s.disableClearRelationships
  | enableClearRelationships, s => s.enableClearRelationships
  | clearRelationships, s => s.clearRelationships
  | resetAllRepositories reset, s => s.resetAllRepositories reset

/-- The state after a run of calls. -/
def run : List (GateCall κ) → Manager ι κ → Manager ι κ
  | [], s => s
  | c :: cs, s => run cs (c.apply s)

/-- The gate's calls that one call makes, on the given repositories. -/
def calls (repositories : List (Repository κ)) : GateCall κ → List Gate.Call
  | disableClearRelationships => [.disable]
  | enableClearRelationships => [.enable]
  | clearRelationships => [.clear]
  | resetAllRepositories reset => Gate.window (Manager.clearRequests reset repositories)

theorem apply_eq (c : GateCall κ) (s : Manager ι κ) :
    c.apply s = Gate.Call.runOn (c.calls s.repositoryList.list) s := by
  cases c with
  | resetAllRepositories reset => exact Manager.resetAllRepositories_eq reset s
  | _ => rfl

theorem run_repositoryList : ∀ (cs : List (GateCall κ)) (s : Manager ι κ),
    (run cs s).repositoryList = s.repositoryList
  | [], _ => rfl
  | c :: cs, s => by
      rw [run, run_repositoryList cs, apply_eq, Gate.Call.runOn_repositoryList]

/-- **The manager refines the gate**: along every run whose depth fits the
`int` count, its counter and flag are the gate's depth and deferred request,
and it tears down as often as the gate does. -/
theorem run_refines (cs : List (GateCall κ)) {g : Gate} {s : Manager ι κ} (hg : g.Abstracts s)
    (hf : Gate.Fits (cs.flatMap (calls s.repositoryList.list)) g) :
    (g.run (cs.flatMap (calls s.repositoryList.list))).1.Abstracts (run cs s) ∧
      (run cs s).teardownCount =
        s.teardownCount + (g.run (cs.flatMap (calls s.repositoryList.list))).2 := by
  induction cs generalizing g s with
  | nil => exact ⟨hg, rfl⟩
  | cons c cs ih =>
      rw [List.flatMap_cons, Gate.fits_append] at hf
      obtain ⟨hg', ht⟩ := hg.run (c.calls s.repositoryList.list) hf.1
      rw [← apply_eq] at hg' ht
      have hr := (run_repositoryList [c] s)
      simp only [run] at hr
      obtain ⟨hg'', ht'⟩ := ih hg' (by rw [hr]; exact hf.2)
      rw [hr] at hg'' ht'
      refine ⟨?_, ?_⟩
      · rw [List.flatMap_cons, Gate.run_append]; exact hg''
      · rw [run, ht', ht, List.flatMap_cons, Gate.run_append, Nat.add_assoc]

theorem run_append (as bs : List (GateCall κ)) (s : Manager ι κ) :
    run (as ++ bs) s = run bs (run as s) := by
  induction as generalizing s with
  | nil => rfl
  | cons a as ih => exact ih _

variable [DecidableEq ι] [Fintype κ]

/-- **The gate law below the `int` limit.**  From any state the gate
describes, along every run of disables, enables, clear requests and resets of
all repositories, whatever requests each reset makes, in which the depth stays
below `2^31`: the count never becomes negative; a pending request implies a
positive count; the count and the flag are the gate's depth and deferred
request, and the structure is torn down exactly as often as the gate tears
down, that is once for each request made at count 0 and once for each enable
that brings the count to 0 with a request deferred, however many were made;
and at every state reached below `INT_MAX`, a reset of all repositories and a
preparation return with the count they were entered with. -/
theorem run_gate (cs : List (GateCall κ)) (g : Gate) (s : Manager ι κ) (hg : g.Abstracts s)
    (hf : Gate.Fits (cs.flatMap (calls s.repositoryList.list)) g) :
    0 ≤ (run cs s).clearRelationshipsDisableCount.toInt ∧
      ((run cs s).needsClearRelationships = true →
        0 < (run cs s).clearRelationshipsDisableCount.toInt) ∧
      (g.run (cs.flatMap (calls s.repositoryList.list))).1.Abstracts (run cs s) ∧
      (run cs s).teardownCount =
        s.teardownCount + (g.run (cs.flatMap (calls s.repositoryList.list))).2 ∧
      ((run cs s).clearRelationshipsDisableCount.toInt < 2 ^ 31 - 1 →
        (∀ reset : Repository κ → Nat,
          ((run cs s).resetAllRepositories reset).clearRelationshipsDisableCount =
            (run cs s).clearRelationshipsDisableCount) ∧
        ∀ (env : PrepareEnvironment ι κ) (aKext : κ) (kextName : Option String)
          (checkLoadedForDependencies doLoad : Bool) (inauthenticKexts : Option (List κ)),
          (Manager.prepareKextForLoading env (run cs s) aKext kextName checkLoadedForDependencies
            doLoad inauthenticKexts).manager.clearRelationshipsDisableCount =
            (run cs s).clearRelationshipsDisableCount) := by
  obtain ⟨⟨hc, hn⟩, ht⟩ := run_refines cs hg hf
  have hpos : 0 ≤ (run cs s).clearRelationshipsDisableCount.toInt := by
    rw [hc]; exact Int.natCast_nonneg _
  refine ⟨hpos, fun h => ?_, ⟨hc, hn⟩, ht, fun hmax => ⟨fun reset => ?_,
    fun env aKext kextName cl dl ik =>
      Manager.prepareKextForLoading_disableCount env aKext kextName cl dl ik ⟨hpos, hmax⟩⟩⟩
  · rw [hc]; exact_mod_cast (g.run _).1.pending_pos (hn ▸ h)
  · -- a reset is a window, which fits below `INT_MAX` and returns to its depth
    obtain ⟨⟨hc', -⟩, -⟩ := run_refines [resetAllRepositories reset] (⟨hc, hn⟩ :
      (g.run (cs.flatMap (calls s.repositoryList.list))).1.Abstracts (run cs s))
      (by
        simp only [List.flatMap_cons, List.flatMap_nil, List.append_nil, calls]
        exact Gate.fits_window _ _ (by rw [hc] at hmax; omega))
    simp only [run, apply, List.flatMap_cons, List.flatMap_nil, List.append_nil, calls] at hc'
    exact BitVec.eq_of_toInt_eq (by rw [hc', (Gate.run_window _ _).1, hc])

/-- The deferred request of the specification, run on a fresh manager:
disable, request, enable. -/
theorem run_gate_disableClearEnable :
    ∃ cs : List (GateCall (Fin 2)),
      cs = [.disableClearRelationships, .clearRelationships, .enableClearRelationships] ∧
      Gate.idle.Abstracts sameVersionPair ∧
      Gate.Fits (cs.flatMap (calls sameVersionPair.repositoryList.list)) Gate.idle ∧
      0 ≤ (run cs sameVersionPair).clearRelationshipsDisableCount.toInt ∧
      ((run cs sameVersionPair).needsClearRelationships = true →
        0 < (run cs sameVersionPair).clearRelationshipsDisableCount.toInt) ∧
      (Gate.idle.run (cs.flatMap (calls sameVersionPair.repositoryList.list))).1.Abstracts
        (run cs sameVersionPair) ∧
      (run cs sameVersionPair).teardownCount = sameVersionPair.teardownCount +
        (Gate.idle.run (cs.flatMap (calls sameVersionPair.repositoryList.list))).2 ∧
      ((run cs sameVersionPair).clearRelationshipsDisableCount.toInt < 2 ^ 31 - 1 →
        (∀ reset : Repository (Fin 2) → Nat,
          ((run cs sameVersionPair).resetAllRepositories reset).clearRelationshipsDisableCount =
            (run cs sameVersionPair).clearRelationshipsDisableCount) ∧
        ∀ (env : PrepareEnvironment Nat (Fin 2)) (aKext : Fin 2) (kextName : Option String)
          (checkLoadedForDependencies doLoad : Bool) (inauthenticKexts : Option (List (Fin 2))),
          (Manager.prepareKextForLoading env (run cs sameVersionPair) aKext kextName
            checkLoadedForDependencies doLoad inauthenticKexts).manager.clearRelationshipsDisableCount =
            (run cs sameVersionPair).clearRelationshipsDisableCount) :=
  have hg : Gate.idle.Abstracts sameVersionPair := ⟨rfl, rfl⟩
  have hf : Gate.Fits ([.disableClearRelationships, .clearRelationships,
      .enableClearRelationships].flatMap (calls sameVersionPair.repositoryList.list)) Gate.idle := by
    decide
  ⟨_, rfl, hg, hf, run_gate _ _ _ hg hf⟩

omit [DecidableEq ι] [Fintype κ] in
theorem run_replicate_disableClearRelationships (n : Nat) (s : Manager ι κ) :
    run (List.replicate n .disableClearRelationships) s =
      { s with
        clearRelationshipsDisableCount := s.clearRelationshipsDisableCount + BitVec.ofNat 32 n } := by
  induction n generalizing s with
  | zero => simp [run]
  | succ n ih =>
      rw [List.replicate_succ, run, ih]
      simp only [apply, Manager.disableClearRelationships, BitVec.add_assoc]
      congr 2
      exact BitVec.eq_of_toNat_eq (by simp; omega)

/-- **`2^31` disables overflow the count.**  From a new manager's state,
`2^31` disables and no enable leave the `int` count negative, and a clear
request made there tears the structure down at once. -/
theorem run_disableClearRelationships_overflow :
    (run (List.replicate (2 ^ 31) .disableClearRelationships)
        sameVersionPair).clearRelationshipsDisableCount.toInt < 0 ∧
      (run (List.replicate (2 ^ 31) .disableClearRelationships ++ [.clearRelationships])
        sameVersionPair).teardownCount = sameVersionPair.teardownCount + 1 := by
  have hneg : (run (List.replicate (2 ^ 31) .disableClearRelationships)
      sameVersionPair).clearRelationshipsDisableCount.toInt < 0 := by
    rw [run_replicate_disableClearRelationships]; decide
  refine ⟨hneg, ?_⟩
  rw [run_append, run, run, apply, Manager.clearRelationships_teardownCount, if_neg (by omega),
    run_replicate_disableClearRelationships]

end GateCall

end KextManager
