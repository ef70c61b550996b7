/-
# Read deferrals

A session that cannot read its own build reports it, and the kernel parks the phase once the
session ended.  Session, phase and round are all required for a report to count; a native
continuation takes over the pending item of its predecessor, so a chain parks once.
-/
import Autobuild.Events.Catalog

namespace Autobuild

open ObjectMap

structure ReadDeferral where
  session : String
  phase : Phase
  round : Nat
  evidenceSeq : Nat
  diagnostic : String
  ended : Bool
  settled : Bool
  /-- Seq of the chain's latest classified read failure. -/
  lastFailureSeq : Nat
  /-- A later read succeeded. -/
  recovered : Bool
  deriving DecidableEq

structure DeferralSession where
  phase : Phase
  round : Nat
  ended : Bool
  terminal : Bool
  deriving DecidableEq

structure ReadDeferralsAcc where
  sessions : ObjectMap String DeferralSession := ∅
  pending : List ReadDeferral := []
  raises : ObjectMap String Nat := ∅
  /-- What an assignment to `sessions.__proto__` makes the prototype of `sessions`. -/
  prototype : Option DeferralSession := none

def initialReadDeferrals : ReadDeferralsAcc := {}

/-! ## 1. Sessions -/

/-- `sessions[id] = session`: the plain object gets no key `__proto__`. -/
def setDeferralSession (acc : ReadDeferralsAcc) (id : String) (session : DeferralSession) :
    ReadDeferralsAcc :=
  if id = "__proto__" then { acc with prototype := some session }
  else { acc with sessions := acc.sessions.set id session }

/-- `sessions[id]`: what else the object inherits has no phase. -/
def deferralSession (acc : ReadDeferralsAcc) (id : String) : Option DeferralSession :=
  if id = "__proto__" then acc.prototype else acc.sessions.get? id

theorem setDeferralSession_of_ne {acc : ReadDeferralsAcc} {id : String}
    (h : id ≠ "__proto__") (session : DeferralSession) :
    setDeferralSession acc id session = { acc with sessions := acc.sessions.set id session } :=
  if_neg h

@[simp] theorem pending_setDeferralSession (acc : ReadDeferralsAcc) (id : String)
    (session : DeferralSession) : (setDeferralSession acc id session).pending = acc.pending := by
  rw [setDeferralSession]
  split <;> rfl

@[simp] theorem raises_setDeferralSession (acc : ReadDeferralsAcc) (id : String)
    (session : DeferralSession) : (setDeferralSession acc id session).raises = acc.raises := by
  rw [setDeferralSession]
  split <;> rfl

/-- Where no session took the place of the prototype, what is found is an own entry. -/
theorem get?_of_deferralSession {acc : ReadDeferralsAcc} (hown : acc.prototype = none) {id : String}
    {session : DeferralSession} (h : deferralSession acc id = some session) :
    acc.sessions.get? id = some session := by
  rw [deferralSession] at h
  split at h
  · rw [hown] at h
    cases h
  · exact h

/-- A continuation inherits its predecessor's pending item. -/
def continueDeferral (acc : ReadDeferralsAcc) (payload : SessionStarted) (predecessor : String) :
    ReadDeferralsAcc :=
  let pending := acc.pending.map fun item =>
    if item.session = predecessor ∧ item.ended = false ∧ item.phase = payload.phase
        ∧ item.round = payload.round.getD 1 then
      { item with session := payload.session }
    else item
  { acc with
    pending := pending
    sessions := if pending.any (fun item => item.session = predecessor) then acc.sessions
      else acc.sessions.erase predecessor }

def startDeferralSession (acc : ReadDeferralsAcc) (payload : SessionStarted) :
    ReadDeferralsAcc :=
  let acc := match payload.continuation with
    | some continuation => continueDeferral acc payload continuation.predecessor
    | none => acc
  let session : DeferralSession :=
    { phase := payload.phase, round := payload.round.getD 1, ended := false, terminal := false }
  setDeferralSession acc payload.session session

/-- The event is the terminal one of the session's phase and round. -/
def completesSession (session : DeferralSession) : EventBody → Bool
  | .plan (.completed payload) =>
    decide (session.phase = .core .plan) && decide (payload.round = session.round)
  | .planReview (.verdict payload) =>
    decide (session.phase = .core .planReview) && decide (payload.round = session.round)
  | .implement (.completed payload) =>
    decide (session.phase = .core .implement) && decide (payload.round = session.round)
  | .codeReview (.verdict payload) =>
    decide (session.phase = .core .codeReview) && decide (payload.round = session.round)
  | .verify (.completed payload) =>
    decide (session.phase = verifyPhase payload.step) && decide (payload.attempt = session.round)
  | .finalize (.completed _) => decide (session.phase = .core .finalize)
  | .reconcile (.completed _) => decide (session.phase = .core .reconcile)
  | _ => false

def isAgentBoundary : EventBody → Bool
  | .escalationRaised _ => true
  | .publication (.requested _) => true
  | _ => false

/-- The event ends what the session was launched for. -/
def finishesSession (event : AbEvent) (id : String) (session : DeferralSession) : Bool :=
  let own := match event.actor with
    | .agent _ actor => decide (actor = id)
    | _ => false
  let actorMatches := own || decide (event.actor = .kernel)
  !session.ended && actorMatches &&
    (completesSession session event.body || (own && isAgentBoundary event.body))

def finishSessions (acc : ReadDeferralsAcc) (event : AbEvent) : ReadDeferralsAcc :=
  { acc with
    sessions := acc.sessions.mapValues fun id session =>
      { session with terminal := session.terminal || finishesSession event id session }
    pending := acc.pending.filter fun item =>
      !acc.sessions.entries.any fun entry =>
        decide (entry.1 = item.session) && finishesSession event entry.1 entry.2 }

/-! ## 2. Reports -/

def openDeferral (seq : Nat) (payload : SessionBuildReadFailed) : ReadDeferral where
  session := payload.session
  phase := payload.phase
  round := payload.round
  evidenceSeq := seq
  diagnostic := payload.diagnostic
  ended := false
  settled := false
  lastFailureSeq := seq
  recovered := false

/-- The first item of a list that a test picks, changed. -/
def updateFirst {α : Type} (p : α → Bool) (f : α → α) : List α → List α
  | [] => []
  | x :: xs => if p x then f x :: xs else x :: updateFirst p f xs

/-- A later failure invalidates earlier recovery. -/
def renewDeferral (seq : Nat) (payload : SessionBuildReadFailed) (item : ReadDeferral) :
    ReadDeferral :=
  if item.ended = false ∧ item.settled = false ∧ item.phase = payload.phase
      ∧ item.round = payload.round then
    { item with lastFailureSeq := seq, recovered := false, diagnostic := payload.diagnostic }
  else item

/-- The chain keeps one item. -/
def noteReadFailure (acc : ReadDeferralsAcc) (seq : Nat) (payload : SessionBuildReadFailed) :
    ReadDeferralsAcc :=
  match deferralSession acc payload.session with
  | none => acc
  | some session =>
    if session.terminal = false ∧ session.ended = false ∧ session.phase = payload.phase
        ∧ session.round = payload.round then
      if acc.pending.any (fun item => item.session = payload.session) then
        { acc with
          pending := updateFirst (fun item => item.session = payload.session)
            (renewDeferral seq payload) acc.pending }
      else { acc with pending := acc.pending ++ [openDeferral seq payload] }
    else acc

def noteReadRecovery (acc : ReadDeferralsAcc) (payload : SessionBuildReadRecovered) :
    ReadDeferralsAcc :=
  { acc with pending := acc.pending.map fun item =>
      if item.session = payload.session ∧ item.phase = payload.phase ∧ item.round = payload.round
          ∧ item.evidenceSeq = payload.evidenceSeq ∧ item.lastFailureSeq = payload.failureSeq
          ∧ item.ended = false ∧ item.settled = false then
        { item with recovered := true }
      else item }

/-- A recovered post-step is retired by the kernel's step outcome for its session. -/
def retirePostStep (acc : ReadDeferralsAcc) (actor : Actor) : ReadDeferralsAcc :=
  match actor with
  | .agent _ id =>
    let retired := fun (item : ReadDeferral) =>
      decide (item.session = id) && decide (item.phase = .core .finalize) && item.recovered
        && !item.settled
    if acc.pending.any retired then
      { acc with
        pending := acc.pending.filter (fun item => !retired item)
        sessions := acc.sessions.erase id }
    else acc
  | _ => acc

def endDeferralSession (acc : ReadDeferralsAcc) (session : String) : ReadDeferralsAcc :=
  let sessions := match acc.sessions.get? session with
    | some entry => acc.sessions.set session { entry with ended := true }
    | none => acc.sessions
  { acc with
    sessions := if acc.pending.any (fun item => item.session = session) then sessions
      else sessions.erase session
    prototype := if session = "__proto__" then
        acc.prototype.map fun entry => { entry with ended := true }
      else acc.prototype
    pending := acc.pending.map fun item =>
      if item.session = session then { item with ended := true } else item }

def settleDeferral (acc : ReadDeferralsAcc) (payload : PhaseDeferred) : ReadDeferralsAcc :=
  { acc with pending := acc.pending.map fun item =>
      if item.session = payload.session ∧ item.phase = payload.phase
          ∧ item.round = payload.round then
        { item with settled := true }
      else item }

/-- A number assigned to `raises.__proto__` is dropped. -/
def noteRaise (acc : ReadDeferralsAcc) (payload : PhaseDeferralEscalated) : ReadDeferralsAcc :=
  if payload.id ≠ "__proto__" ∧ acc.pending.any (fun item =>
      item.evidenceSeq = payload.evidenceSeq ∧ item.session = payload.session
        ∧ item.phase = payload.phase ∧ item.round = payload.round) = true then
    { acc with raises := acc.raises.set payload.id payload.evidenceSeq }
  else acc

def answerRaise (acc : ReadDeferralsAcc) (id : String) : ReadDeferralsAcc :=
  match acc.raises.get? id with
  | none => acc
  | some seq =>
    { acc with
      sessions := (acc.pending.filter (fun item => item.evidenceSeq = seq)).foldl
        (fun sessions item => sessions.erase item.session) acc.sessions
      pending := acc.pending.filter (fun item => item.evidenceSeq ≠ seq)
      raises := acc.raises.erase id }

/-! ## 3. One event -/

/-- What an event does after the sessions it finishes are closed. -/
def noteDeferral (acc : ReadDeferralsAcc) (event : AbEvent) : ReadDeferralsAcc :=
  match event.body with
  | .session (.buildReadFailed payload) => noteReadFailure acc event.seq payload
  | .session (.buildReadRecovered payload) => noteReadRecovery acc payload
  | .session (.ended payload) => endDeferralSession acc payload.session
  | .finalize (.stepCompleted _) => retirePostStep acc event.actor
  | .publication (.requested _) => retirePostStep acc event.actor
  | .phase (.deferred payload) => settleDeferral acc payload
  | .phase (.deferralEscalated payload) => noteRaise acc payload
  | .escalationAnswered payload => answerRaise acc payload.id
  | _ => acc

def foldReadDeferral (acc : ReadDeferralsAcc) (event : AbEvent) : ReadDeferralsAcc :=
  let acc := match event.body with
    | .session (.started payload) => startDeferralSession acc payload
    | _ => acc
  noteDeferral (finishSessions acc event) event

def foldReadDeferrals (acc : ReadDeferralsAcc) (events : List AbEvent) : ReadDeferralsAcc :=
  events.foldl foldReadDeferral acc

/-- An event that finishes nothing leaves the sessions as they are. -/
theorem finishSessions_of_not {acc : ReadDeferralsAcc} {event : AbEvent}
    (h : ∀ id session, finishesSession event id session = false) :
    finishSessions acc event = acc := by
  have hs : acc.sessions.mapValues (fun id session =>
      { session with terminal := session.terminal || finishesSession event id session })
        = acc.sessions := by
    have hid : (fun (id : String) (session : DeferralSession) =>
        { session with terminal := session.terminal || finishesSession event id session })
          = fun _ session => session := by
      funext id session
      rw [h, Bool.or_false]
    rw [hid]
    obtain ⟨⟨entries, nodup⟩, pending, raises⟩ := acc
    simp [mapValues]
  have hp : acc.pending.filter (fun item => !acc.sessions.entries.any fun entry =>
      decide (entry.1 = item.session) && finishesSession event entry.1 entry.2) = acc.pending := by
    refine List.filter_eq_self.mpr fun item _ => ?_
    simp [h]
  unfold finishSessions
  rw [hs, hp]

end Autobuild
