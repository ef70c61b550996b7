/-
# The convergence loop

The review loop held on the stack: a producer and a reviewer in rounds, until the reviewer
approves or escalates, a finding chain stalls, or the rounds are used up.  `converge` also
lists the feedback each producer round was given.
-/
import Autobuild.Kernel.Stall

namespace Autobuild

structure ConvergePolicy where
  /-- Producer and review round pairs allowed before escalating. -/
  maxRounds : Nat
  /-- The streak of a persistence chain that escalates. -/
  stallRounds : Nat

/-- The structured outcome of a review. -/
inductive Verdict where
  | approve
  | revise (findings : List Finding)
  | escalate (reason : String)

inductive ConvergeOutcome (α : Type) where
  | approved (artifact : α) (rounds : Nat)
  | escalated (source : EscalationSource) (reason : String) (rounds : Nat)
      (chain : Option FindingChain)

/-- The ids of the findings are the feedback of the next round. -/
def findingsFeedbackOf (findings : List Finding) : Feedback :=
  .findings (findings.map (·.id))

section

variable {α : Type} (produce : Option Feedback → Nat → α)
  (review : α → Nat → List (List Finding) → Verdict) (policy : ConvergePolicy)
  (dismissedIds : List String)

/-- The loop from a round on, with the findings of the rounds before and the feedback for this
one. -/
def converge (round : Nat) (roundFindings : List (List Finding)) (feedback : Option Feedback) :
    List (Option Feedback) × ConvergeOutcome α :=
  if round > policy.maxRounds then
    ([], .escalated .policy
      ("maxRounds (" ++ toString policy.maxRounds ++ ") exhausted without approval")
      (round - 1) none)
  else
    let artifact := produce feedback round
    match review artifact round roundFindings with
    | .approve => ([feedback], .approved artifact round)
    | .escalate reason => ([feedback], .escalated .agent reason round none)
    | .revise findings =>
      -- the stall threshold comes before another producer round is spent
      match deepestChain (stalledChains (roundFindings ++ [findings]) policy.stallRounds
        dismissedIds) with
      | some chain => ([feedback], .escalated .stall chain.report round (some chain))
      | none =>
        let rest := converge (round + 1) (roundFindings ++ [findings])
          (some (findingsFeedbackOf findings))
        (feedback :: rest.1, rest.2)
termination_by policy.maxRounds + 1 - round

end

end Autobuild
