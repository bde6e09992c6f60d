/-
KextManager/Personalities.lean

`KXKextManagerSendKextPersonalitiesToCatalog` and
`__KXKextManagerCheckPersonalityForSafeBoot`.

The call first builds `candidatePersonalities`: given personality names, one
entry per name holding what the kext's personality dictionary has for it;
given no names, a copy of the kext's dictionary.  The dictionary is created
with `kCFTypeDictionaryValueCallBacks`, so `CFDictionarySetValue` retains the
value it stores, and for a name the kext lacks that value is NULL:
`CFRetain(NULL)` crashes, before anything is stored or sent.  The call then
walks the candidates in the dictionary's order: a name that does not fit a C
string of 254 bytes ends the call, a personality whose `IOKitDebug` value is
not the number zero is skipped in safe boot, the user is asked when the call
is interactive, and a negative answer ends the call.  What is kept is sent in
one message, if anything is kept.

Personalities are a type `π` and their values a type `ν`; the lookup of
`IOKitDebug` (`ioKitDebug`), `CFNumberGetValue` as a `long long`
(`numberGetValue`), the user's veto callback (`userVetoFunc`, asked about a
name at most once, the names being dictionary keys) and
`KXKextManagerSendPersonalitiesToCatalog` (`sendPersonalitiesToCatalog`) are
inputs.  A call that crashes returns none.

Main results: which names are stored with which values, and that a missing
name crashes the call (`candidatePersonalities_spec`); the walk over the
candidates (`selectPersonalities_spec`); and with them the call, which crashes
exactly when a requested name is missing (`sendKextPersonalitiesToCatalog_eq_none_iff`)
and otherwise sends the requested personalities that pass, in one message
(`sendKextPersonalitiesToCatalog_spec`).
-/
import KextManager.Basic

namespace KextManager

variable {π ν : Type}

/-! ### The safe-boot check -/

section Check

variable (ioKitDebug : π → Option ν) (numberGetValue : ν → Option Int)

/-- `__KXKextManagerCheckPersonalityForSafeBoot`: `1` (send) when the
personality has no `IOKitDebug` value or its value is the number `0`, `0`
otherwise. -/
def checkPersonalityForSafeBoot (aPersonality : π) : Int :=
  match ioKitDebug aPersonality with
  | none => 1
  | some rawValue =>
      match numberGetValue rawValue with
      | none => 0
      | some numValue => if numValue ≠ 0 then 0 else 1

/-- The check answers `0` or `1`, and `1` exactly when the `IOKitDebug` value is
absent or numerically zero. -/
theorem checkPersonalityForSafeBoot_spec (p : π) :
    (checkPersonalityForSafeBoot ioKitDebug numberGetValue p = 0 ∨
        checkPersonalityForSafeBoot ioKitDebug numberGetValue p = 1) ∧
      (checkPersonalityForSafeBoot ioKitDebug numberGetValue p = 1 ↔
        ∀ v, ioKitDebug p = some v → numberGetValue v = some 0) := by
  unfold checkPersonalityForSafeBoot
  rcases ioKitDebug p with _ | v
  · simp
  · rcases hn : numberGetValue v with _ | n
    · simp [hn]
    · by_cases h : n = 0 <;> simp [hn, h]

end Check

/-! ### The walk over the candidates -/

/-- How the walk over the candidates ends. -/
inductive Selection (π : Type) where
  /-- The walk went through: the personalities to send and their names. -/
  | chosen (personalities : List π) (names : List String)
  /-- `goto finish` with this result. -/
  | failed (result : KXKextManagerError)

/-- A personality kept ahead of what the rest of the walk gives. -/
def Selection.cons (p : π) (name : String) : Selection π → Selection π
  | .chosen ps ns => .chosen (p :: ps) (name :: ns)
  | r => r

section Walk

variable (ioKitDebug : π → Option ν) (numberGetValue : ν → Option Int)
  (interactive safeBoot : Bool) (userVetoFunc : String → Int)

/-- The loop of `KXKextManagerSendKextPersonalitiesToCatalog` over the keys and
values of `candidatePersonalities`. -/
def selectPersonalities : List (String × π) → Selection π
  | [] => .chosen [] []
  | (thisKey, thisPersonality) :: rest =>
      if !cStringFits 254 thisKey then .failed .unspecified
      else
        let ok := if safeBoot then checkPersonalityForSafeBoot ioKitDebug numberGetValue
          thisPersonality else 1
        let ok := if ok ≠ 0 ∧ interactive = true then userVetoFunc thisKey else ok
        if 0 < ok then (selectPersonalities rest).cons thisPersonality thisKey
        else if ok < 0 then .failed .unspecified
        else selectPersonalities rest

/-- Whether a candidate personality is sent: it passes the safe-boot check in
safe boot, and the user answers positively when the call is interactive. -/
def passes (e : String × π) : Bool :=
  (!safeBoot || checkPersonalityForSafeBoot ioKitDebug numberGetValue e.2 == 1) &&
    (!interactive || decide (0 < userVetoFunc e.1))

/-- Whether a candidate ends the walk: its name does not convert, or the call
is interactive, the personality passes the safe-boot test and the user answers
negatively. -/
def aborts (e : String × π) : Bool :=
  !cStringFits 254 e.1 ||
    (interactive && (!safeBoot || checkPersonalityForSafeBoot ioKitDebug numberGetValue e.2 == 1) &&
      decide (userVetoFunc e.1 < 0))

/-- One candidate whose name converts: the walk fails if it aborts, keeps it
if it passes, and otherwise goes on. -/
theorem selectPersonalities_cons {n : String} (p : π) (rest : List (String × π))
    (hfit : cStringFits 254 n = true) :
    selectPersonalities ioKitDebug numberGetValue interactive safeBoot userVetoFunc ((n, p) :: rest) =
      if aborts ioKitDebug numberGetValue interactive safeBoot userVetoFunc (n, p) then
        .failed .unspecified
      else if passes ioKitDebug numberGetValue interactive safeBoot userVetoFunc (n, p) then
        (selectPersonalities ioKitDebug numberGetValue interactive safeBoot userVetoFunc rest).cons p n
      else selectPersonalities ioKitDebug numberGetValue interactive safeBoot userVetoFunc rest := by
  have hc := (checkPersonalityForSafeBoot_spec ioKitDebug numberGetValue p).1
  rcases hc with hc | hc <;> cases safeBoot <;> cases interactive <;>
    simp [selectPersonalities, hfit, hc, aborts, passes]
  -- interactive, the safe-boot test passed: the sign of the user's answer
  all_goals split_ifs <;> first | rfl | omega

/-- **The walk over the candidates.**  It fails iff some candidate aborts it,
and otherwise keeps the candidates that pass, in order. -/
theorem selectPersonalities_spec : ∀ entries : List (String × π),
    selectPersonalities ioKitDebug numberGetValue interactive safeBoot userVetoFunc entries =
      if entries.any (aborts ioKitDebug numberGetValue interactive safeBoot userVetoFunc) then
        .failed .unspecified
      else
        .chosen ((entries.filter (passes ioKitDebug numberGetValue interactive safeBoot
            userVetoFunc)).map Prod.snd)
          ((entries.filter (passes ioKitDebug numberGetValue interactive safeBoot
            userVetoFunc)).map Prod.fst)
  | [] => rfl
  | (n, p) :: rest => by
      by_cases hfit : cStringFits 254 n = true
      · rw [selectPersonalities_cons _ _ _ _ _ p _ hfit, selectPersonalities_spec rest, List.any_cons]
        cases ha : aborts ioKitDebug numberGetValue interactive safeBoot userVetoFunc (n, p) <;>
          cases hp : passes ioKitDebug numberGetValue interactive safeBoot userVetoFunc (n, p) <;>
          cases hr : rest.any (aborts ioKitDebug numberGetValue interactive safeBoot userVetoFunc) <;>
          simp [hp, Selection.cons]
      · simp [selectPersonalities, hfit, aborts]

end Walk

/-! ### The candidate dictionary -/

section Candidates

variable (kextPersonalities : AList fun _ : String => π)

/-- Whether the call asks for the personality named `n`: with names, when `n`
is one of them; with none or no names, when the kext has it. -/
def Requested (personalityNames : Option (List String)) (n : String) : Prop :=
  match personalityNames with
  | some (m :: ms) => n ∈ m :: ms
  | _ => n ∈ kextPersonalities

/-- The loop that fills `candidatePersonalities` from the names: each name
bound with `CFDictionarySetValue` to what the kext's dictionary holds for it.
The dictionary retains the value, and `CFRetain(NULL)` crashes: a name the
kext lacks ends the call, none. -/
def setCandidates : List String → (AList fun _ : String => π) → Option (AList fun _ : String => π)
  | [], candidates => some candidates
  | thisName :: names, candidates =>
      match kextPersonalities.lookup thisName with
      | none => none
      | some thisPersonality => setCandidates names (candidates.insert thisName thisPersonality)

/-- The keys and values of `candidatePersonalities`, in the dictionary's
order: with names, each name bound to the kext's personality of that name,
none when the loop crashes; with none or no names, the kext's dictionary
(`CFDictionaryCreateCopy`). -/
def candidatePersonalities (personalityNames : Option (List String)) :
    Option (List (String × π)) :=
  match personalityNames with
  | some (thisName :: names) =>
      (setCandidates kextPersonalities (thisName :: names) ∅).map
        fun d => d.entries.map fun e => (e.1, e.2)
  | _ => some (kextPersonalities.entries.map fun e => (e.1, e.2))

/-- The loop crashes exactly when a name is missing from the kext, and
otherwise binds each name to the kext's personality of that name. -/
theorem setCandidates_spec : ∀ (names : List String) (d : AList fun _ : String => π),
    (setCandidates kextPersonalities names d = none ↔ ∃ n ∈ names, n ∉ kextPersonalities) ∧
      ∀ d', setCandidates kextPersonalities names d = some d' → ∀ m,
        d'.lookup m = if m ∈ names then kextPersonalities.lookup m else d.lookup m
  | [], d => by simp [setCandidates]
  | n :: names, d => by
      rcases hn : kextPersonalities.lookup n with _ | p
      · -- the name is missing: `CFRetain(NULL)`
        have : n ∉ kextPersonalities := by rw [← AList.lookup_eq_none]; exact hn
        simp only [setCandidates, hn]
        exact ⟨iff_of_true trivial ⟨n, List.mem_cons_self _ _, this⟩, fun _ h => nomatch h⟩
      · have hmem : n ∈ kextPersonalities := AList.lookup_isSome.mp (by rw [hn]; rfl)
        obtain ⟨ih₁, ih₂⟩ := setCandidates_spec names (d.insert n p)
        simp only [setCandidates, hn]
        refine ⟨by rw [ih₁]; simp [hmem], fun d' h m => ?_⟩
        rw [ih₂ d' h m]
        by_cases hm : m ∈ names
        · simp [hm]
        · by_cases e : m = n
          · subst e; simp [hn]
          · simp [hm, e, AList.lookup_insert_ne e]

/-- **What the dictionary stores**: the call crashes exactly when a requested
name is missing from the kext; otherwise the candidates are the requested
names, each with the kext's personality of that name. -/
theorem candidatePersonalities_spec (personalityNames : Option (List String)) :
    (candidatePersonalities kextPersonalities personalityNames = none ↔
        ∃ n, Requested kextPersonalities personalityNames n ∧ n ∉ kextPersonalities) ∧
      ∀ candidates, candidatePersonalities kextPersonalities personalityNames = some candidates →
        ∀ n p, (n, p) ∈ candidates ↔
          Requested kextPersonalities personalityNames n ∧ kextPersonalities.lookup n = some p := by
  have hcopy : ∀ n p, (n, p) ∈ kextPersonalities.entries.map (fun e => (e.1, e.2)) ↔
      n ∈ kextPersonalities ∧ kextPersonalities.lookup n = some p := fun n p => by
    simp only [List.mem_map, Prod.mk.injEq]
    constructor
    · rintro ⟨⟨m, q⟩, hm, rfl, rfl⟩
      have := Option.mem_def.mp (AList.mem_lookup_iff.mpr hm)
      exact ⟨AList.lookup_isSome.mp (by simp [this]), this⟩
    · rintro ⟨-, hp⟩
      exact ⟨⟨n, p⟩, AList.mem_lookup_iff.mp (Option.mem_def.mpr hp), rfl, rfl⟩
  rcases personalityNames with _ | _ | ⟨m, ms⟩
  · exact ⟨by simp [candidatePersonalities, Requested], fun c h => by cases h; exact hcopy⟩
  · exact ⟨by simp [candidatePersonalities, Requested], fun c h => by cases h; exact hcopy⟩
  · obtain ⟨hnone, hsome⟩ := setCandidates_spec kextPersonalities (m :: ms) ∅
    refine ⟨by simp only [candidatePersonalities, Option.map_eq_none', hnone, Requested], ?_⟩
    rintro c h n p
    obtain ⟨d, hd, rfl⟩ := Option.map_eq_some'.mp h
    have hl := hsome d hd n
    simp only [List.mem_map, Prod.mk.injEq, Requested]
    constructor
    · rintro ⟨⟨k, q⟩, hk, rfl, rfl⟩
      have := Option.mem_def.mp (AList.mem_lookup_iff.mpr hk)
      rw [hsome d hd] at this
      split_ifs at this with h
      · exact ⟨h, this⟩
      · simp at this
    · rintro ⟨hn, hp⟩
      refine ⟨⟨n, p⟩, AList.mem_lookup_iff.mp (Option.mem_def.mpr ?_), rfl, rfl⟩
      rw [hl, if_pos hn, hp]

end Candidates

/-! ### The call -/

/-- What the call did when it returns: its result, and the message it sent
to the catalog if it sent one. -/
structure CatalogSend (π : Type) where
  result : KXKextManagerError
  message : Option (List π)
  deriving DecidableEq

section Send

variable (ioKitDebug : π → Option ν) (numberGetValue : ν → Option Int)
  (interactive safeBoot : Bool) (userVetoFunc : String → Int)
  (sendPersonalitiesToCatalog : List π → KXKextManagerError)

/-- `KXKextManagerSendKextPersonalitiesToCatalog`.  `kextPersonalities` is what
`KXKextCopyPersonalities` returns, `dictionaryAllocated` whether the candidate
dictionary can be allocated, `arraysAllocated` whether the two arrays can, and
`logLevelBasic` whether the names to send are logged, which converts them once
more.  None when the call crashes. -/
def sendKextPersonalitiesToCatalog (kextPersonalities : Option (AList fun _ : String => π))
    (personalityNames : Option (List String))
    (dictionaryAllocated arraysAllocated logLevelBasic : Bool) : Option (CatalogSend π) :=
  match kextPersonalities with
  | none => some ⟨.invalidArgument, none⟩
  | some kp =>
      if !dictionaryAllocated then some ⟨.noMemory, none⟩
      else
        match candidatePersonalities kp personalityNames with
        | none => none
        | some candidates =>
            if !arraysAllocated then some ⟨.noMemory, none⟩
            else
              match selectPersonalities ioKitDebug numberGetValue interactive safeBoot userVetoFunc
                  candidates with
              | .failed result => some ⟨result, none⟩
              | .chosen [] _ => some ⟨.none, none⟩
              | .chosen personalitiesToSend names =>
                  if logLevelBasic && names.any (fun n => !cStringFits 254 n) then
                    some ⟨.unspecified, none⟩
                  else
                    some ⟨sendPersonalitiesToCatalog personalitiesToSend, some personalitiesToSend⟩

/-- **A missing name crashes the call.**  Once the candidate dictionary is
allocated, the call crashes exactly when a requested personality is missing
from the kext, before anything is sent. -/
theorem sendKextPersonalitiesToCatalog_eq_none_iff (kextPersonalities : AList fun _ : String => π)
    (personalityNames : Option (List String)) (arraysAllocated logLevelBasic : Bool) :
    sendKextPersonalitiesToCatalog ioKitDebug numberGetValue interactive safeBoot userVetoFunc
        sendPersonalitiesToCatalog (some kextPersonalities) personalityNames true arraysAllocated
        logLevelBasic = none ↔
      ∃ n, Requested kextPersonalities personalityNames n ∧ n ∉ kextPersonalities := by
  rw [← (candidatePersonalities_spec kextPersonalities personalityNames).1]
  cases hc : candidatePersonalities kextPersonalities personalityNames with
  | none => simp [sendKextPersonalitiesToCatalog, hc]
  | some candidates =>
      -- every path after the dictionary returns
      refine iff_of_false ?_ (by simp)
      simp only [sendKextPersonalitiesToCatalog, Bool.not_true, Bool.false_eq_true, if_false, hc]
      split_ifs
      · simp
      · split <;> (try split_ifs) <;> simp

/-- **The call when every requested personality is present.**  The candidates
are then the requested personalities of the kext; the call fails without
sending when a candidate aborts the walk, sends nothing when no candidate
passes, and otherwise sends the candidates that pass, in one message. -/
theorem sendKextPersonalitiesToCatalog_spec (kextPersonalities : AList fun _ : String => π)
    (personalityNames : Option (List String)) (logLevelBasic : Bool)
    (hnames : ∀ n, Requested kextPersonalities personalityNames n → n ∈ kextPersonalities) :
    ∃ entries : List (String × π),
      (∀ n p, (n, p) ∈ entries ↔
        Requested kextPersonalities personalityNames n ∧ kextPersonalities.lookup n = some p) ∧
      sendKextPersonalitiesToCatalog ioKitDebug numberGetValue interactive safeBoot userVetoFunc
          sendPersonalitiesToCatalog (some kextPersonalities) personalityNames true true
          logLevelBasic =
        some (if entries.any (aborts ioKitDebug numberGetValue interactive safeBoot userVetoFunc)
          then ⟨.unspecified, none⟩
          else if (entries.filter (passes ioKitDebug numberGetValue interactive safeBoot
              userVetoFunc)).isEmpty then ⟨.none, none⟩
          else ⟨sendPersonalitiesToCatalog ((entries.filter (passes ioKitDebug numberGetValue
              interactive safeBoot userVetoFunc)).map Prod.snd),
            some ((entries.filter (passes ioKitDebug numberGetValue interactive safeBoot
              userVetoFunc)).map Prod.snd)⟩) := by
  obtain ⟨hnone, hsome⟩ := candidatePersonalities_spec kextPersonalities personalityNames
  -- no requested name is missing, so the dictionary is filled
  obtain ⟨E, hE⟩ : ∃ E, candidatePersonalities kextPersonalities personalityNames = some E :=
    Option.ne_none_iff_exists'.mp fun h => by
      obtain ⟨n, hr, hn⟩ := hnone.mp h
      exact hn (hnames n hr)
  refine ⟨E, hsome E hE, ?_⟩
  simp only [sendKextPersonalitiesToCatalog, Bool.not_true, Bool.false_eq_true, if_false, hE]
  rw [selectPersonalities_spec]
  split_ifs with ha hp
  · rfl
  · rw [List.isEmpty_iff.mp hp]; rfl
  · -- every name kept converts, so the logging pass cannot fail
    have hnames' : List.any (((E.filter (passes ioKitDebug numberGetValue interactive safeBoot
        userVetoFunc)).map Prod.fst)) (fun n => !cStringFits 254 n) = false := by
      simp only [List.any_eq_false, List.mem_map, List.mem_filter]
      rintro n ⟨e, ⟨he, -⟩, rfl⟩
      have hab : aborts ioKitDebug numberGetValue interactive safeBoot userVetoFunc e = false :=
        Bool.eq_false_iff.mpr fun h => ha (List.any_eq_true.mpr ⟨e, he, h⟩)
      revert hab
      unfold aborts
      cases cStringFits 254 e.1 <;> simp
    revert hp hnames'
    generalize E.filter (passes ioKitDebug numberGetValue interactive safeBoot userVetoFunc) = kept
    rintro hp hnames'
    cases kept with
    | nil => exact absurd rfl hp
    | cons e kept => simp only [List.map_cons] at hnames' ⊢; simp [hnames']

end Send

/-- A kext with one personality, `IOKitTest`, asked to send it, outside safe
boot and not interactive. -/
theorem sendKextPersonalitiesToCatalog_spec_present :
    (∀ n, Requested ((∅ : AList fun _ : String => Unit).insert "IOKitTest" ()) (some ["IOKitTest"]) n →
        n ∈ (∅ : AList fun _ : String => Unit).insert "IOKitTest" ()) ∧
      ∃ entries : List (String × Unit),
        (∀ n p, (n, p) ∈ entries ↔
          Requested ((∅ : AList fun _ : String => Unit).insert "IOKitTest" ()) (some ["IOKitTest"]) n ∧
            ((∅ : AList fun _ : String => Unit).insert "IOKitTest" ()).lookup n = some p) ∧
        sendKextPersonalitiesToCatalog (fun _ : Unit => (none : Option Unit)) (fun _ => none) false
            false (fun _ => 1) (fun _ => .none)
            (some ((∅ : AList fun _ : String => Unit).insert "IOKitTest" ())) (some ["IOKitTest"]) true
            true false =
          some (if entries.any (aborts (fun _ : Unit => (none : Option Unit)) (fun _ => none) false false
              (fun _ => 1))
            then ⟨.unspecified, none⟩
            else if (entries.filter (passes (fun _ : Unit => (none : Option Unit)) (fun _ => none) false
                false (fun _ => 1))).isEmpty then ⟨.none, none⟩
            else ⟨.none, some ((entries.filter (passes (fun _ : Unit => (none : Option Unit))
                (fun _ => none) false false (fun _ => 1))).map Prod.snd)⟩) :=
  have hnames : ∀ n, Requested ((∅ : AList fun _ : String => Unit).insert "IOKitTest" ())
      (some ["IOKitTest"]) n → n ∈ (∅ : AList fun _ : String => Unit).insert "IOKitTest" () :=
    fun n h => by simp only [Requested, List.mem_singleton] at h; exact (AList.mem_insert _).mpr (.inl h)
  ⟨hnames, sendKextPersonalitiesToCatalog_spec _ _ _ _ _ (fun _ => .none) _ _ false hnames⟩

/-- A kext with one personality, `IOKitTest`, asked to send `IOKitTest` and
`Missing`, outside safe boot and not interactive: `IOKitTest` passes, but the
call crashes on `Missing` and sends nothing. -/
theorem sendKextPersonalitiesToCatalog_crashes_on_missing :
    passes (fun _ : Unit => (none : Option Unit)) (fun _ => none) false false (fun _ => 1)
        ("IOKitTest", ()) = true ∧
      sendKextPersonalitiesToCatalog (fun _ : Unit => (none : Option Unit)) (fun _ => none) false
        false (fun _ => 1) (fun _ => .none)
        (some ((∅ : AList fun _ : String => Unit).insert "IOKitTest" ()))
        (some ["IOKitTest", "Missing"]) true true false = none :=
  ⟨rfl, by decide⟩

end KextManager
