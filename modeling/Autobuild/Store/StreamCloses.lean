/-
# Closing a stream while others append to it

Closing assembles the chunks into a document, stores it, and then marks the stream closed; between
the two, others run.  The store in memory keeps appends out of that window by the lock of the
stream.  The local store serves several connections, which know nothing of one another's locks: it
looks at the last chunk again when it commits, and assembles anew when that is not the one it has
seen.

* `Transcript`: what a stream is for, namely its batches in their order until it is closed.
* `RowStep.transcripts`: whatever a store does to its streams is a step of their transcripts.
* `MemoryInv.rowStep`, `LocalInv.commit`: what is committed was assembled of all there is.
* `memoryStore_closes`, `localStore_closes`: however the calls are interleaved, the artifact of a
  closed stream is that of all batches that were taken, an acknowledged batch is one of them, and it
  stays so.

`assembleUIMessageDocument` is a parameter.  Which closed streams lose their chunks when another is
created is left open.
-/
import Autobuild.Store.SessionWriter
import Autobuild.Store.StreamLocks

namespace Autobuild.StreamCloses

open StreamLocks

/-! ## 1. Transcripts -/

structure Transcript where
  batches : List (List StreamFields)
  /-- How the stream was closed. -/
  outcome : Option StreamOutcome

abbrev Transcripts := String → Option Transcript

inductive TranscriptStep (t : Transcripts) : Transcripts → Prop where
  | create (id : String) (habsent : t id = none) :
      TranscriptStep t (Function.update t id (some ⟨[], none⟩))
  | append (id : String) (batches : List (List StreamFields)) (parts : List StreamFields)
      (hopen : t id = some ⟨batches, none⟩) :
      TranscriptStep t (Function.update t id (some ⟨batches ++ [parts], none⟩))
  | close (id : String) (batches : List (List StreamFields)) (outcome : StreamOutcome)
      (hopen : t id = some ⟨batches, none⟩) :
      TranscriptStep t (Function.update t id (some ⟨batches, some outcome⟩))

def TranscriptRun : Transcripts → Transcripts → Prop := Relation.ReflTransGen TranscriptStep

/-- A closed transcript stays as it is, and an open one goes on. -/
def Transcript.Continues (before after : Transcript) : Prop :=
  before.batches <+: after.batches ∧ (before.outcome.isSome = true → after = before)

theorem Transcript.Continues.refl (transcript : Transcript) : transcript.Continues transcript :=
  ⟨List.prefix_rfl, fun _ => rfl⟩

theorem Transcript.Continues.trans {a b c : Transcript} (h : a.Continues b)
    (h' : b.Continues c) : a.Continues c := by
  refine ⟨h.1.trans h'.1, fun hclosed => ?_⟩
  have hab := h.2 hclosed
  subst hab
  exact h'.2 hclosed

theorem TranscriptStep.continues {t t' : Transcripts} (h : TranscriptStep t t') {id : String}
    {before : Transcript} (hbefore : t id = some before) :
    ∃ after, t' id = some after ∧ before.Continues after := by
  have hother : ∀ {other : String} {value : Option Transcript}, id ≠ other →
      ∃ after, Function.update t other value id = some after ∧ before.Continues after := by
    intro other value hne
    rw [Function.update_of_ne hne]
    exact ⟨before, hbefore, .refl before⟩
  cases h with
  | create other habsent =>
    refine hother fun he => ?_
    rw [he, habsent] at hbefore
    cases hbefore
  | append other batches parts hopen =>
    by_cases hid : id = other
    · subst hid
      cases hopen.symm.trans hbefore
      exact ⟨_, Function.update_self .., List.prefix_append .., fun hclosed => by cases hclosed⟩
    · exact hother hid
  | close other batches outcome hopen =>
    by_cases hid : id = other
    · subst hid
      cases hopen.symm.trans hbefore
      exact ⟨_, Function.update_self .., List.prefix_rfl, fun hclosed => by cases hclosed⟩
    · exact hother hid

theorem TranscriptRun.continues {t t' : Transcripts} (h : TranscriptRun t t') {id : String}
    {before : Transcript} (hbefore : t id = some before) :
    ∃ after, t' id = some after ∧ before.Continues after := by
  induction h with
  | refl => exact ⟨before, hbefore, .refl before⟩
  | tail _ hstep ih =>
    obtain ⟨middle, hmiddle, hcontinues⟩ := ih
    obtain ⟨after, hafter, hnext⟩ := hstep.continues hmiddle
    exact ⟨after, hafter, hcontinues.trans hnext⟩

/-! ## 2. Streams as a store has them -/

structure Chunk where
  seq : Nat
  parts : List StreamFields

/-- What `streamArtifactInput` makes of an assembled document. -/
structure StreamArtifact (δ : Type) where
  document : δ
  droppedPartCount : Nat
  chunkCount : Nat
  outcome : StreamOutcome

structure StreamRow (δ : Type) where
  /-- The artifact of a closed stream. -/
  closed : Option (StreamArtifact δ) := none
  chunks : List Chunk := []
  /-- The batches that were taken, in their order. -/
  accepted : List (List StreamFields) := []

section Rows

variable {δ : Type} (assemble : List StreamFields → δ × Nat)

def artifactOf (outcome : StreamOutcome) (batches : List (List StreamFields)) :
    StreamArtifact δ :=
  let (document, droppedPartCount) := assemble batches.flatten
  ⟨document, droppedPartCount, batches.length, outcome⟩

/-- The artifact of the chunks there are. -/
def artifactInput (outcome : StreamOutcome) (chunks : List Chunk) : StreamArtifact δ :=
  artifactOf assemble outcome (chunks.map (·.parts))

/-- `validateStreamParts`, and the bound of a batch: both before the lock is asked for. -/
def checkStreamParts (parts : List StreamFields) : Except String Unit :=
  if parts = [] then .error "stream parts must be a nonempty array"
  else if parts.any fun part => partType part = [] then
    .error "every stream part must carry a nonempty string \"type\""
  else if STREAM_BATCH_MAX_BYTES < serializedBatchSize parts then
    .error ("stream batch of " ++ toString (serializedBatchSize parts) ++ " bytes exceeds the " ++
      toString STREAM_BATCH_MAX_BYTES ++ "-byte ceiling")
  else .ok ()

def StreamRow.pushed (row : StreamRow δ) (seq : Nat) (parts : List StreamFields) : StreamRow δ :=
  { row with chunks := row.chunks ++ [⟨seq, parts⟩], accepted := row.accepted ++ [parts] }

/-- `state.chunks = []`, of a closed stream. -/
def StreamRow.pruned (row : StreamRow δ) : StreamRow δ :=
  if row.closed.isSome then { row with chunks := [] } else row

@[simp] theorem StreamRow.pruned_accepted (row : StreamRow δ) :
    row.pruned.accepted = row.accepted := by
  unfold pruned
  split <;> rfl

@[simp] theorem StreamRow.pruned_closed (row : StreamRow δ) : row.pruned.closed = row.closed := by
  unfold pruned
  split <;> rfl

/-- A new stream; some of the closed ones lose their chunks. -/
def created (streams : String → Option (StreamRow δ)) (id : String) (drop : String → Bool) :
    String → Option (StreamRow δ) :=
  Function.update
    (fun other => (streams other).map fun row => if drop other then row.pruned else row)
    id (some {})

inductive Answer (δ : Type) where
  | chunk (seq : Nat)
  | record (artifact : StreamArtifact δ)
  | threw (message : String)

def unknownStream (id : String) : Answer δ := .threw ("unknown stream \"" ++ id ++ "\"")

def streamClosed (id : String) : Answer δ := .threw ("stream \"" ++ id ++ "\" is closed")

/-! ### What a stream keeps -/

/-- An open stream has all its chunks, numbered without a gap; the artifact of a closed one is
that of all batches. -/
structure StreamRow.Sound (row : StreamRow δ) : Prop where
  parts : row.closed = none → row.chunks.map (·.parts) = row.accepted
  seqs : row.closed = none → row.chunks.map (·.seq) = List.range' 1 row.accepted.length
  complete : ∀ artifact, row.closed = some artifact →
    artifact = artifactOf assemble artifact.outcome row.accepted

variable {assemble}

namespace StreamRow.Sound

variable {row : StreamRow δ}

theorem initial : StreamRow.Sound assemble ({} : StreamRow δ) :=
  ⟨fun _ => rfl, fun _ => rfl, fun _ h => by cases h⟩

theorem pruned (h : row.Sound assemble) : row.pruned.Sound assemble := by
  unfold StreamRow.pruned
  split
  · rename_i hclosed
    refine ⟨fun hopen => ?_, fun hopen => ?_, h.complete⟩ <;>
    · change row.closed = none at hopen
      rw [hopen] at hclosed
      cases hclosed
  · exact h

theorem length_chunks (h : row.Sound assemble) (hopen : row.closed = none) :
    row.chunks.length = row.accepted.length := by
  rw [← h.parts hopen, List.length_map]

theorem pushed (h : row.Sound assemble) (hopen : row.closed = none) (parts : List StreamFields) :
    (row.pushed (row.accepted.length + 1) parts).Sound assemble where
  parts _ := by
    change (row.chunks ++ [_]).map _ = row.accepted ++ [parts]
    rw [List.map_append, h.parts hopen, List.map_singleton]
  seqs _ := by
    change (row.chunks ++ [_]).map _ = List.range' 1 (row.accepted ++ [parts]).length
    rw [List.map_append, h.seqs hopen, List.map_singleton, List.length_append,
      List.length_singleton, List.range'_1_concat, Nat.add_comm 1]
  complete artifact hclosed := by
    change row.closed = some artifact at hclosed
    rw [hopen] at hclosed
    cases hclosed

theorem close (h : row.Sound assemble) (hopen : row.closed = none) (outcome : StreamOutcome) :
    ({ row with closed := some (artifactInput assemble outcome row.chunks) } :
      StreamRow δ).Sound assemble where
  parts hclosed := by cases hclosed
  seqs hclosed := by cases hclosed
  complete artifact hclosed := by
    rw [← Option.some.inj hclosed]
    unfold artifactInput
    rw [h.parts hopen]
    rfl

end StreamRow.Sound

variable (assemble)

/-- What can become of the streams between two awaits. -/
inductive RowStep (streams : String → Option (StreamRow δ)) :
    (String → Option (StreamRow δ)) → Prop where
  | same : RowStep streams streams
  | create (id : String) (drop : String → Bool) (habsent : streams id = none) :
      RowStep streams (created streams id drop)
  | append (id : String) (row : StreamRow δ) (parts : List StreamFields)
      (hrow : streams id = some row) (hopen : row.closed = none) :
      RowStep streams
        (Function.update streams id (some (row.pushed (row.accepted.length + 1) parts)))
  | close (id : String) (row : StreamRow δ) (outcome : StreamOutcome)
      (hrow : streams id = some row) (hopen : row.closed = none) :
      RowStep streams (Function.update streams id
        (some { row with closed := some (artifactInput assemble outcome row.chunks) }))

def StreamsSound (streams : String → Option (StreamRow δ)) : Prop :=
  ∀ id row, streams id = some row → row.Sound assemble

/-- What the streams are for. -/
def transcripts (streams : String → Option (StreamRow δ)) : Transcripts := fun id =>
  (streams id).map fun row => ⟨row.accepted, row.closed.map (·.outcome)⟩

variable {assemble} {streams streams' : String → Option (StreamRow δ)}

theorem RowStep.sound (h : RowStep assemble streams streams')
    (hsound : StreamsSound assemble streams) : StreamsSound assemble streams' := by
  have hupdate : ∀ {id : String} {row : StreamRow δ} {others : String → Option (StreamRow δ)},
      StreamsSound assemble others → row.Sound assemble →
        StreamsSound assemble (Function.update others id (some row)) := by
    intro id row others hothers hrow other found hfound
    by_cases hid : other = id
    · subst hid
      rw [Function.update_self] at hfound
      exact Option.some.inj hfound ▸ hrow
    · rw [Function.update_of_ne hid] at hfound
      exact hothers other found hfound
  cases h with
  | same => exact hsound
  | create id drop habsent =>
    refine hupdate (fun other found hfound => ?_) .initial
    obtain ⟨row, hrow, rfl⟩ := Option.map_eq_some_iff.mp hfound
    split
    · exact (hsound other row hrow).pruned
    · exact hsound other row hrow
  | append id row parts hrow hopen =>
    exact hupdate hsound ((hsound id row hrow).pushed hopen parts)
  | close id row outcome hrow hopen =>
    exact hupdate hsound ((hsound id row hrow).close hopen outcome)

theorem transcripts_update (id : String) (row : StreamRow δ) :
    transcripts (Function.update streams id (some row)) =
      Function.update (transcripts streams) id
        (some ⟨row.accepted, row.closed.map (·.outcome)⟩) := by
  funext other
  unfold transcripts
  by_cases hid : other = id
  · subst hid
    rw [Function.update_self, Function.update_self]
    rfl
  · rw [Function.update_of_ne hid, Function.update_of_ne hid]

theorem transcripts_created (id : String) (drop : String → Bool) :
    transcripts (created streams id drop) =
      Function.update (transcripts streams) id (some ⟨[], none⟩) := by
  unfold created
  rw [transcripts_update]
  refine congrArg (Function.update · id _) (funext fun other => ?_)
  change ((streams other).map _).map _ = (streams other).map _
  rw [Option.map_map]
  refine Option.map_congr fun row _ => ?_
  rw [Function.comp_apply]
  split
  · rw [StreamRow.pruned_accepted, StreamRow.pruned_closed]
  · rfl

/-- **Each change of the streams is a step of their transcripts, or none.** -/
theorem RowStep.transcripts (h : RowStep assemble streams streams') :
    TranscriptRun (transcripts streams) (transcripts streams') := by
  have hopened : ∀ {id : String} {row : StreamRow δ}, streams id = some row →
      row.closed = none → StreamCloses.transcripts streams id = some ⟨row.accepted, none⟩ := by
    intro id row hrow hopen
    unfold StreamCloses.transcripts
    rw [hrow, Option.map_some, hopen]
    rfl
  cases h with
  | same => exact .refl
  | create id drop habsent =>
    rw [transcripts_created]
    refine .single (.create id ?_)
    unfold StreamCloses.transcripts
    rw [habsent]
    rfl
  | append id row parts hrow hopen =>
    rw [transcripts_update]
    have hstep := TranscriptStep.append id row.accepted parts (hopened hrow hopen)
    change TranscriptRun _ (Function.update _ id (some ⟨row.accepted ++ [parts],
      row.closed.map (·.outcome)⟩))
    rw [hopen]
    exact .single hstep
  | close id row outcome hrow hopen =>
    rw [transcripts_update]
    exact .single (.close id row.accepted outcome (hopened hrow hopen))

/-- A stream goes on, and is not opened again. -/
theorem RowStep.row (h : RowStep assemble streams streams') {id : String} {row : StreamRow δ}
    (hrow : streams id = some row) : ∃ row', streams' id = some row' ∧
      row.accepted <+: row'.accepted ∧ (row'.closed = none → row.closed = none) := by
  have hbefore : StreamCloses.transcripts streams id
      = some ⟨row.accepted, row.closed.map (·.outcome)⟩ := by
    unfold StreamCloses.transcripts
    rw [hrow]
    rfl
  obtain ⟨after, hafter, hprefix, hsame⟩ := h.transcripts.continues hbefore
  obtain ⟨row', hrow', rfl⟩ := Option.map_eq_some_iff.mp hafter
  refine ⟨row', hrow', hprefix, fun hopen => ?_⟩
  cases hclosed : row.closed with
  | none => rfl
  | some artifact =>
    have heq := congrArg Transcript.outcome (hsame (by rw [hclosed]; rfl))
    rw [hopen, hclosed] at heq
    cases heq

/-- An acknowledged batch stays where it is. -/
theorem RowStep.acknowledged (h : RowStep assemble streams streams') {id : String}
    {row : StreamRow δ} (hrow : streams id = some row) {n : Nat} {parts : List StreamFields}
    (hat : row.accepted[n]? = some parts) :
    ∃ row', streams' id = some row' ∧ row'.accepted[n]? = some parts := by
  obtain ⟨row', hrow', ⟨more, hmore⟩, -⟩ := h.row hrow
  refine ⟨row', hrow', ?_⟩
  rw [← hmore, List.getElem?_append_left (List.getElem?_eq_some_iff.mp hat).1, hat]

/-- What a run leaves of a closed stream. -/
theorem artifact_stays (hsound : StreamsSound assemble streams)
    (hsound' : StreamsSound assemble streams')
    (hrun : TranscriptRun (transcripts streams) (transcripts streams')) {id : String}
    {row : StreamRow δ} {artifact : StreamArtifact δ} (hrow : streams id = some row)
    (hclosed : row.closed = some artifact) : ∃ row', streams' id = some row' ∧
      row'.closed = some artifact ∧ row'.accepted = row.accepted := by
  have hbefore : StreamCloses.transcripts streams id
      = some ⟨row.accepted, some artifact.outcome⟩ := by
    unfold StreamCloses.transcripts
    rw [hrow, Option.map_some, hclosed]
    rfl
  obtain ⟨after, hafter, -, hsame⟩ := hrun.continues hbefore
  rw [hsame rfl] at hafter
  obtain ⟨row', hrow', hview⟩ := Option.map_eq_some_iff.mp hafter
  have haccepted : row'.accepted = row.accepted := congrArg Transcript.batches hview
  obtain ⟨artifact', hclosed', houtcome⟩ :=
    Option.map_eq_some_iff.mp (congrArg Transcript.outcome hview)
  have hcomplete := (hsound id row hrow).complete artifact hclosed
  have hcomplete' := (hsound' id row' hrow').complete artifact' hclosed'
  refine ⟨row', hrow', ?_, haccepted⟩
  rw [hclosed', hcomplete', hcomplete, haccepted, houtcome]

end Rows

/-! ## 3. The store in memory -/

/-- What a call does when it has the lock of its stream. -/
inductive Body where
  | append (parts : List StreamFields)
  | close (outcome : StreamOutcome)

structure MemoryStore (δ : Type) where
  locks : Locks String := {}
  streams : String → Option (StreamRow δ) := fun _ => none
  /-- By the calls of `streamLocks.run`, whose keys are the streams. -/
  bodies : List Body := []
  /-- What a `closeStream` has assembled and not committed. -/
  prepared : Nat → Option (StreamArtifact δ) := fun _ => none
  answers : Nat → Option (Answer δ) := fun _ => none

inductive MemoryAction where
  | createStream (id : String) (drop : String → Bool)
  | appendStreamParts (id : String) (parts : List StreamFields)
  | closeStream (id : String) (outcome : StreamOutcome)
  /-- The lock is had. -/
  | enter (i : Nat)
  /-- The body runs to its next `await`, or to its end. -/
  | body (i : Nat)
  /-- Assembling or storing the document throws. -/
  | fail (i : Nat) (message : String)
  | release (i : Nat)
  | sweep (i : Nat)

namespace MemoryStore

variable {δ : Type} (assemble : List StreamFields → δ × Nat) (s : MemoryStore δ)

def calling (id : String) (body : Body) : MemoryStore δ :=
  { s with locks := s.locks.called id, bodies := s.bodies ++ [body] }

def answered (i : Nat) (answer : Answer δ) : MemoryStore δ :=
  { s with
    locks := s.locks.moved i .settled
    answers := Function.update s.answers i (some answer) }

def locked (action : LockAction String) : Option (MemoryStore δ) :=
  (s.locks.step action).map fun locks => { s with locks := locks }

/-- The body of `appendStreamParts`. -/
def appendBody (i : Nat) (id : String) (parts : List StreamFields) : MemoryStore δ :=
  match s.streams id with
  | none => s.answered i (unknownStream id)
  | some row =>
    if row.closed.isSome then s.answered i (streamClosed id)
    else
      let seq := row.chunks.length + 1
      { s with streams := Function.update s.streams id (some (row.pushed seq parts)) }.answered i
        (.chunk seq)

/-- The body of `closeStream`, up to its `await` and from there. -/
def closeBody (i : Nat) (id : String) (outcome : StreamOutcome) : MemoryStore δ :=
  match s.streams id with
  | none => s.answered i (unknownStream id)
  | some row =>
    match row.closed with
    | some artifact => s.answered i (.record artifact)
    | none =>
      match s.prepared i with
      | none =>
        { s with
          prepared := Function.update s.prepared i
            (some (artifactInput assemble outcome row.chunks)) }
      | some artifact =>
        { s with
          streams := Function.update s.streams id (some { row with closed := some artifact })
          }.answered i (.record artifact)

/-- The body of a call whose `fn` is called. -/
def ofRunning (i : Nat) (run : String → Body → MemoryStore δ) : Option (MemoryStore δ) :=
  s.locks.turns[i]?.bind fun turn => s.bodies[i]?.bind fun body =>
    if turn.phase = .running then some (run turn.key body) else none

def step : MemoryAction → Option (MemoryStore δ)
  | .createStream id drop =>
    -- the ids are random
    if (s.streams id).isSome then none else some { s with streams := created s.streams id drop }
  | .appendStreamParts id parts =>
    match checkStreamParts parts with
    | .error _ => some s
    | .ok _ => some (s.calling id (.append parts))
  | .closeStream id outcome => some (s.calling id (.close outcome))
  | .enter i => s.locked (.enter i)
  | .body i => s.ofRunning i fun id body =>
    match body with
    | .append parts => s.appendBody i id parts
    | .close outcome => s.closeBody assemble i id outcome
  | .fail i message =>
    if (s.prepared i).isSome then s.ofRunning i fun _ _ => s.answered i (.threw message) else none
  | .release i => s.locked (.release i)
  | .sweep i => s.locked (.sweep i)

end MemoryStore

section Memory

variable {δ : Type} (assemble : List StreamFields → δ × Nat)

abbrev MemoryStep : MemoryStore δ → MemoryStore δ → Prop :=
  Steps.Step (MemoryStore.step assemble)

abbrev MemoryRun : MemoryStore δ → MemoryStore δ → Prop :=
  Steps.Run (MemoryStore.step assemble)

/-- A call that runs. -/
structure RunningCall (s : MemoryStore δ) (i : Nat) (id : String) (body : Body) : Prop where
  body : s.bodies[i]? = some body
  turn : ∃ tail, s.locks.turns[i]? = some ⟨id, tail, .running⟩

/-- What a step does. -/
inductive MemoryMove (s : MemoryStore δ) : MemoryStore δ → Prop where
  | refused : MemoryMove s s
  | create (id : String) (drop : String → Bool) (habsent : s.streams id = none) :
      MemoryMove s { s with streams := created s.streams id drop }
  | call (id : String) (body : Body) : MemoryMove s (s.calling id body)
  | lock (action : LockAction String) (locks : Locks String)
      (hkeeps : action.runs = none) (hstep : s.locks.step action = some locks) :
      MemoryMove s { s with locks := locks }
  | answer (i : Nat) (id : String) (body : Body) (answer : Answer δ)
      (hcall : RunningCall s i id body) (hchunk : ∀ seq, answer ≠ .chunk seq) :
      MemoryMove s (s.answered i answer)
  | push (i : Nat) (id : String) (parts : List StreamFields) (row : StreamRow δ)
      (hcall : RunningCall s i id (.append parts)) (hrow : s.streams id = some row)
      (hopen : row.closed = none) :
      MemoryMove s ({ s with
        streams := Function.update s.streams id (some (row.pushed (row.chunks.length + 1) parts))
        }.answered i (.chunk (row.chunks.length + 1)))
  | prepare (i : Nat) (id : String) (outcome : StreamOutcome) (row : StreamRow δ)
      (hcall : RunningCall s i id (.close outcome)) (hrow : s.streams id = some row)
      (hopen : row.closed = none) :
      MemoryMove s { s with
        prepared := Function.update s.prepared i
          (some (artifactInput assemble outcome row.chunks)) }
  | commit (i : Nat) (id : String) (outcome : StreamOutcome) (row : StreamRow δ)
      (artifact : StreamArtifact δ) (hcall : RunningCall s i id (.close outcome))
      (hrow : s.streams id = some row) (hopen : row.closed = none)
      (hprepared : s.prepared i = some artifact) :
      MemoryMove s ({ s with
        streams := Function.update s.streams id (some { row with closed := some artifact })
        }.answered i (.record artifact))

variable {assemble} {s s' : MemoryStore δ}

theorem of_ofRunning {i : Nat} {run : String → Body → MemoryStore δ}
    (h : s.ofRunning i run = some s') :
    ∃ id body, RunningCall s i id body ∧ s' = run id body := by
  obtain ⟨⟨id, tail, phase⟩, hturn, h⟩ := Option.bind_eq_some_iff.mp h
  obtain ⟨body, hbody, h⟩ := Option.bind_eq_some_iff.mp h
  split at h
  · rename_i hphase
    change phase = .running at hphase
    subst hphase
    exact ⟨id, body, ⟨hbody, tail, hturn⟩, (Option.some.inj h).symm⟩
  · cases h

theorem memoryMove_of_step (h : MemoryStep assemble s s') : MemoryMove assemble s s' := by
  obtain ⟨action, h⟩ := h
  have hlocked : ∀ {action : LockAction String}, action.runs = none →
      s.locked action = some s' → MemoryMove assemble s s' := by
    intro action hkeeps hlocked
    obtain ⟨locks, hstep, rfl⟩ := Option.map_eq_some_iff.mp hlocked
    exact .lock action locks hkeeps hstep
  cases action with
  | createStream id drop =>
    simp only [MemoryStore.step] at h
    split at h
    · cases h
    · rename_i habsent
      rw [← Option.some.inj h]
      exact .create id drop (by simpa using habsent)
  | appendStreamParts id parts =>
    simp only [MemoryStore.step] at h
    split at h
    · rw [← Option.some.inj h]
      exact .refused
    · rw [← Option.some.inj h]
      exact .call id (.append parts)
  | closeStream id outcome =>
    rw [← Option.some.inj h]
    exact .call id (.close outcome)
  | enter i => exact hlocked rfl h
  | body i =>
    simp only [MemoryStore.step] at h
    obtain ⟨id, body, hcall, rfl⟩ := of_ofRunning h
    cases body with
    | append parts =>
      change MemoryMove assemble s (s.appendBody i id parts)
      unfold MemoryStore.appendBody
      split
      · exact .answer i id _ _ hcall fun seq he => by cases he
      · rename_i row hrow
        split
        · exact .answer i id _ _ hcall fun seq he => by cases he
        · rename_i hopen
          exact .push i id parts row hcall hrow (by simpa using hopen)
    | close outcome =>
      change MemoryMove assemble s (s.closeBody assemble i id outcome)
      unfold MemoryStore.closeBody
      split
      · exact .answer i id _ _ hcall fun seq he => by cases he
      · rename_i row hrow
        split
        · exact .answer i id _ _ hcall fun seq he => by cases he
        · rename_i hopen
          split
          · exact .prepare i id outcome row hcall hrow hopen
          · rename_i artifact hprepared
            exact .commit i id outcome row artifact hcall hrow hopen hprepared
  | fail i message =>
    simp only [MemoryStore.step] at h
    split at h
    · obtain ⟨id, body, hcall, rfl⟩ := of_ofRunning h
      exact .answer i id body _ hcall fun seq he => by cases he
    · cases h
  | release i => exact hlocked rfl h
  | sweep i => exact hlocked rfl h

/-! ### What is so between two awaits -/

variable (assemble) in
structure MemoryInv (s : MemoryStore δ) : Prop where
  locks : LocksInv s.locks
  bodies : s.bodies.length = s.locks.turns.length
  sound : StreamsSound assemble s.streams
  /-- Nobody else touches the stream of a running call. -/
  prepared : ∀ i artifact, s.prepared i = some artifact → ∃ turn,
    s.locks.turns[i]? = some turn ∧ 1 ≤ turn.phase.rank ∧
      (turn.phase = .running → ∃ outcome row, s.bodies[i]? = some (.close outcome) ∧
        s.streams turn.key = some row ∧ row.closed = none ∧
          artifact = artifactInput assemble outcome row.chunks)
  acknowledged : ∀ i seq, s.answers i = some (.chunk seq) → ∃ turn parts row,
    s.locks.turns[i]? = some turn ∧ s.bodies[i]? = some (.append parts) ∧
      s.streams turn.key = some row ∧ 0 < seq ∧ row.accepted[seq - 1]? = some parts

namespace MemoryInv

theorem initial : MemoryInv assemble ({} : MemoryStore δ) where
  locks := .initial
  bodies := rfl
  sound _ _ h := by cases h
  prepared _ _ h := by cases h
  acknowledged _ _ h := by cases h

/-- Reactions of the lock. -/
theorem lock (h : MemoryInv assemble s) {action : LockAction String} {locks : Locks String}
    (hkeeps : action.runs = none) (hstep : s.locks.step action = some locks) :
    MemoryInv assemble { s with locks := locks } := by
  obtain ⟨key, rfl⟩ | ⟨i, turn, hturn, hmove⟩ := step_cases ⟨action, hstep⟩
  · -- the only action with a new call is excluded
    have hlen := congrArg (fun l => (Option.map (fun l : Locks String => l.turns.length) l)) hstep
    cases action with
    | run key => cases hkeeps
    | enter i | settle i | release i | sweep i =>
      obtain ⟨turn, hturn, hguard⟩ := Option.bind_eq_some_iff.mp hstep
      split at hguard
      · have hturns := congrArg (fun l : Locks String => l.turns.length) (Option.some.inj hguard)
        simp [Locks.called] at hturns
      · cases hguard
  · have hforward := hmove.forward hturn
    refine ⟨h.locks.step ⟨action, hstep⟩, h.bodies.trans hmove.length_eq.symm, h.sound, ?_, ?_⟩
    · intro k artifact hk
      obtain ⟨before, hbefore, hentered, hopen⟩ := h.prepared k artifact hk
      obtain ⟨after, hafter, hkey, -, hrank⟩ := hforward.kept k before hbefore
      refine ⟨after, hafter, Nat.le_trans hentered hrank, fun hrunning => ?_⟩
      rw [hkey]
      refine hopen ?_
      rw [hrunning] at hrank
      cases hphase : before.phase <;> rw [hphase] at hentered hrank <;>
        first | rfl | exact absurd hentered (by decide) | exact absurd hrank (by decide)
    · intro k seq hk
      obtain ⟨before, parts, row, hbefore, hbody, hrow, hat⟩ := h.acknowledged k seq hk
      obtain ⟨after, hafter, hkey, -, -⟩ := hforward.kept k before hbefore
      exact ⟨after, parts, row, hafter, hbody, hkey.symm ▸ hrow, hat⟩

/-- A new call. -/
theorem call (h : MemoryInv assemble s) (id : String) (body : Body) :
    MemoryInv assemble (s.calling id body) := by
  have hturns : ∀ {k : Nat} {turn : Turn String}, s.locks.turns[k]? = some turn →
      (s.calling id body).locks.turns[k]? = some turn := fun hk =>
    (List.getElem?_append_left (List.getElem?_eq_some_iff.mp hk).1).trans hk
  have hbodies : ∀ {k : Nat} {other : Body}, s.bodies[k]? = some other →
      (s.calling id body).bodies[k]? = some other := fun hk =>
    (List.getElem?_append_left (List.getElem?_eq_some_iff.mp hk).1).trans hk
  refine ⟨h.locks.run id, ?_, h.sound, fun k artifact hk => ?_, fun k seq hk => ?_⟩
  · change (s.bodies ++ [body]).length = (s.locks.turns ++ [_]).length
    rw [List.length_append, List.length_append, h.bodies]
    rfl
  · obtain ⟨turn, hturn, hentered, hopen⟩ := h.prepared k artifact hk
    refine ⟨turn, hturns hturn, hentered, fun hrunning => ?_⟩
    obtain ⟨outcome, row, hbody, hrest⟩ := hopen hrunning
    exact ⟨outcome, row, hbodies hbody, hrest⟩
  · obtain ⟨turn, parts, row, hturn, hbody, hrest⟩ := h.acknowledged k seq hk
    exact ⟨turn, parts, row, hturns hturn, hbodies hbody, hrest⟩

/-- A body ends, whatever it has done to its own stream. -/
theorem answer (h : MemoryInv assemble s) {i : Nat} {id : String} {body : Body}
    (hcall : RunningCall s i id body) {streams' : String → Option (StreamRow δ)}
    (hstreams : RowStep assemble s.streams streams')
    (hframe : ∀ other, other ≠ id → streams' other = s.streams other) {answer : Answer δ}
    (hchunk : ∀ seq, answer = .chunk seq → ∃ parts row, body = .append parts ∧
      streams' id = some row ∧ 0 < seq ∧ row.accepted[seq - 1]? = some parts) :
    MemoryInv assemble ({ s with streams := streams' }.answered i answer) := by
  obtain ⟨tail, hturn⟩ := hcall.turn
  have hmoved : LocksInv (s.locks.moved i .settled) :=
    h.locks.moved hturn (by decide : 1 ≤ 2) (fun he => by cases he) fun hzero => by cases hzero
  have hforward : Forward s.locks.turns (s.locks.moved i .settled).turns :=
    .moved hturn (by decide : 1 ≤ 2)
  refine ⟨hmoved, h.bodies.trans (Locks.moved_length _).symm, hstreams.sound h.sound,
    fun k artifact hk => ?_, fun k seq hk => ?_⟩
  · obtain ⟨before, hbefore, hentered, hopen⟩ := h.prepared k artifact hk
    obtain ⟨after, hafter, hkey, -, hrank⟩ := hforward.kept k before hbefore
    refine ⟨after, hafter, Nat.le_trans hentered hrank, fun hrunning => ?_⟩
    rcases Locks.moved_cases hafter with ⟨-, source, -, rfl⟩ | ⟨hne, hsame⟩
    · cases hrunning
    · cases hbefore.symm.trans hsame
      obtain ⟨outcome, row, hbody, hrow, hrest⟩ := hopen hrunning
      -- the stream of another running call is another stream
      have hother : before.key ≠ id := fun he => hne
        (h.locks.exclusive hbefore hturn he ⟨hentered, by rw [hrunning]; decide⟩
          ⟨Nat.le_refl 1, (by decide : 1 < 3)⟩)
      exact ⟨outcome, row, hbody, (hframe _ hother).trans hrow, hrest⟩
  · have hkept : ∀ {turn : Turn String}, s.locks.turns[k]? = some turn → ∃ after : Turn String,
        (s.locks.moved i .settled).turns[k]? = some after ∧ after.key = turn.key := by
      intro turn hk
      obtain ⟨after, hafter, hkey, -, -⟩ := hforward.kept k turn hk
      exact ⟨after, hafter, hkey⟩
    change Function.update s.answers i (some answer) k = some (.chunk seq) at hk
    by_cases hik : k = i
    · subst hik
      rw [Function.update_self] at hk
      obtain ⟨parts, row, rfl, hrow, hat⟩ := hchunk seq (Option.some.inj hk)
      obtain ⟨after, hafter, hkey⟩ := hkept hturn
      change after.key = id at hkey
      subst hkey
      exact ⟨after, parts, row, hafter, hcall.body, hrow, hat⟩
    · rw [Function.update_of_ne hik] at hk
      obtain ⟨turn, parts, row, hbefore, hbody, hrow, hpos, hat⟩ := h.acknowledged k seq hk
      obtain ⟨row', hrow', hat'⟩ := hstreams.acknowledged hrow hat
      obtain ⟨after, hafter, hkey⟩ := hkept hbefore
      exact ⟨after, parts, row', hafter, hbody, hkey.symm ▸ hrow', hpos, hat'⟩

theorem rowStep_push (h : MemoryInv assemble s) {id : String} {row : StreamRow δ}
    (hrow : s.streams id = some row) (hopen : row.closed = none) (parts : List StreamFields) :
    RowStep assemble s.streams
      (Function.update s.streams id (some (row.pushed (row.chunks.length + 1) parts))) := by
  rw [(h.sound id row hrow).length_chunks hopen]
  exact .append id row parts hrow hopen

/-- What was prepared is what is committed: the stream is as it was. -/
theorem rowStep_commit (h : MemoryInv assemble s) {i : Nat} {id : String}
    {outcome : StreamOutcome} {row : StreamRow δ} {artifact : StreamArtifact δ}
    (hcall : RunningCall s i id (.close outcome)) (hrow : s.streams id = some row)
    (hopen : row.closed = none) (hprepared : s.prepared i = some artifact) :
    RowStep assemble s.streams
      (Function.update s.streams id (some { row with closed := some artifact })) := by
  obtain ⟨turn, hturn, -, hrunning⟩ := h.prepared i artifact hprepared
  obtain ⟨tail, hat⟩ := hcall.turn
  cases hturn.symm.trans hat
  obtain ⟨other, same, hbody, hsame, -, rfl⟩ := hrunning rfl
  cases hbody.symm.trans hcall.body
  cases hsame.symm.trans hrow
  exact .close id row outcome hrow hopen

theorem rowStep (h : MemoryInv assemble s) (hmove : MemoryMove assemble s s') :
    RowStep assemble s.streams s'.streams := by
  cases hmove with
  | refused => exact .same
  | create id drop habsent => exact .create id drop habsent
  | call id body => exact .same
  | lock action locks hkeeps hstep => exact .same
  | answer i id body answer hcall hchunk => exact .same
  | push i id parts row hcall hrow hopen => exact h.rowStep_push hrow hopen parts
  | prepare i id outcome row hcall hrow hopen => exact .same
  | commit i id outcome row artifact hcall hrow hopen hprepared =>
    exact h.rowStep_commit hcall hrow hopen hprepared

theorem create (h : MemoryInv assemble s) {id : String} (habsent : s.streams id = none)
    (drop : String → Bool) :
    MemoryInv assemble { s with streams := created s.streams id drop } := by
  have hstep : RowStep assemble s.streams (created s.streams id drop) := .create id drop habsent
  refine ⟨h.locks, h.bodies, hstep.sound h.sound, fun i artifact hi => ?_, fun i seq hi => ?_⟩
  · obtain ⟨turn, hturn, hentered, hopen⟩ := h.prepared i artifact hi
    refine ⟨turn, hturn, hentered, fun hrunning => ?_⟩
    obtain ⟨outcome, row, hbody, hrow, hunclosed, hartifact⟩ := hopen hrunning
    have hother : turn.key ≠ id := by
      intro he
      rw [he, habsent] at hrow
      cases hrow
    have hcreated : created s.streams id drop turn.key
        = (s.streams turn.key).map fun row => if drop turn.key then row.pruned else row :=
      Function.update_of_ne hother ..
    have hpruned : row.pruned = row := by
      unfold StreamRow.pruned
      rw [hunclosed]
      rfl
    refine ⟨outcome, row, hbody, hcreated.trans ?_, hunclosed, hartifact⟩
    rw [hrow, Option.map_some, hpruned, ite_self]
  · obtain ⟨turn, parts, row, hturn, hbody, hrow, hpos, hat⟩ := h.acknowledged i seq hi
    obtain ⟨row', hrow', hat'⟩ := hstep.acknowledged hrow hat
    exact ⟨turn, parts, row', hturn, hbody, hrow', hpos, hat'⟩

theorem prepare (h : MemoryInv assemble s) {i : Nat} {id : String} {outcome : StreamOutcome}
    {row : StreamRow δ} (hcall : RunningCall s i id (.close outcome))
    (hrow : s.streams id = some row) (hopen : row.closed = none) :
    MemoryInv assemble { s with
      prepared := Function.update s.prepared i
        (some (artifactInput assemble outcome row.chunks)) } := by
  refine ⟨h.locks, h.bodies, h.sound, fun k artifact hk => ?_, h.acknowledged⟩
  change Function.update s.prepared i _ k = some artifact at hk
  by_cases hik : k = i
  · subst hik
    rw [Function.update_self] at hk
    obtain ⟨tail, hturn⟩ := hcall.turn
    exact ⟨_, hturn, Nat.le_refl 1, fun _ =>
      ⟨outcome, row, hcall.body, hrow, hopen, (Option.some.inj hk).symm⟩⟩
  · rw [Function.update_of_ne hik] at hk
    exact h.prepared k artifact hk

theorem move (h : MemoryInv assemble s) (hmove : MemoryMove assemble s s') :
    MemoryInv assemble s' := by
  have hframe : ∀ {id : String} {value : Option (StreamRow δ)} (other : String), other ≠ id →
      Function.update s.streams id value other = s.streams other :=
    fun other hne => Function.update_of_ne hne ..
  cases hmove with
  | refused => exact h
  | create id drop habsent => exact h.create habsent drop
  | call id body => exact h.call id body
  | lock action locks hkeeps hstep => exact h.lock hkeeps hstep
  | answer i id body answer hcall hchunk =>
    exact h.answer hcall .same (fun _ _ => rfl) fun seq he => absurd he (hchunk seq)
  | push i id parts row hcall hrow hopen =>
    refine h.answer hcall (h.rowStep_push hrow hopen parts) hframe fun seq he => ?_
    obtain rfl := Answer.chunk.inj he
    refine ⟨parts, _, rfl, Function.update_self .., Nat.succ_pos _, ?_⟩
    rw [(h.sound id row hrow).length_chunks hopen]
    exact List.getElem?_concat_length ..
  | prepare i id outcome row hcall hrow hopen => exact h.prepare hcall hrow hopen
  | commit i id outcome row artifact hcall hrow hopen hprepared =>
    exact h.answer hcall (h.rowStep_commit hcall hrow hopen hprepared) hframe fun seq he => by
      cases he

theorem run (h : MemoryInv assemble s) (hrun : MemoryRun assemble s s') :
    MemoryInv assemble s' ∧ TranscriptRun (transcripts s.streams) (transcripts s'.streams) := by
  induction hrun with
  | refl => exact ⟨h, .refl⟩
  | tail _ hstep ih =>
    have hmove := memoryMove_of_step hstep
    exact ⟨ih.1.move hmove, ih.2.trans (ih.1.rowStep hmove).transcripts⟩

end MemoryInv

/-- **In the memory of one process, and however the calls are interleaved: the artifact of a closed
stream is that of all batches that were taken, every acknowledged batch is one of them, at its
place, and a closed stream stays as it was closed.** -/
theorem memoryStore_closes (h : MemoryRun assemble {} s) (hlater : MemoryRun assemble s s') :
    (∀ id row artifact, s.streams id = some row → row.closed = some artifact →
      artifact = artifactOf assemble artifact.outcome row.accepted ∧
      ∃ row', s'.streams id = some row' ∧ row'.closed = some artifact ∧
        row'.accepted = row.accepted) ∧
    ∀ i seq, s.answers i = some (.chunk seq) → ∃ turn parts row,
      s.locks.turns[i]? = some turn ∧ s.bodies[i]? = some (.append parts) ∧
        s.streams turn.key = some row ∧ 0 < seq ∧ row.accepted[seq - 1]? = some parts := by
  obtain ⟨hinv, -⟩ := MemoryInv.initial.run h
  obtain ⟨hinv', hrun⟩ := hinv.run hlater
  exact ⟨fun id row artifact hrow hclosed =>
    ⟨(hinv.sound id row hrow).complete artifact hclosed,
      artifact_stays hinv.sound hinv'.sound hrun hrow hclosed⟩, hinv.acknowledged⟩

/-- A part, and a document that is the number of the parts it is assembled of. -/
def textPart : StreamFields := [(points "type", .str (points "text"))]

def counted (parts : List StreamFields) : Nat × Nat := (parts.length, 0)

/-- A batch before the close, and one that is asked for while it assembles. -/
def overtakenAppend : List MemoryAction :=
  [.createStream "st_1" fun _ => false, .appendStreamParts "st_1" [textPart], .enter 0, .body 0,
    .closeStream "st_1" .completed, .release 0, .enter 1, .body 1,
    .appendStreamParts "st_1" [textPart], .body 1, .release 1, .enter 2, .body 2]

theorem memoryStore_closes_overtakenAppend : ∃ s row artifact,
    Steps.perform (MemoryStore.step counted) overtakenAppend {} = some s ∧
      s.streams "st_1" = some row ∧ row.closed = some artifact ∧ row.accepted.length = 1 ∧
      artifact = artifactOf counted artifact.outcome row.accepted ∧
      s.answers 2 = some (.threw "stream \"st_1\" is closed") := by
  obtain ⟨s, hs⟩ : ∃ s, Steps.perform (MemoryStore.step counted) overtakenAppend {} = some s :=
    ⟨_, rfl⟩
  have hclosed := (memoryStore_closes (Steps.run_of_perform hs) .refl).1 "st_1"
  obtain rfl := Option.some.inj hs
  exact ⟨_, _, _, rfl, rfl, rfl, rfl, (hclosed _ _ rfl rfl).1, rfl⟩

end Memory

/-! ## 4. The local store -/

/-- Where a `closeStream` is. -/
inductive Stage (δ : Type) where
  /-- At the head of its loop. -/
  | started
  /-- The stream was open. -/
  | found
  /-- The document is assembled of this many chunks. -/
  | prepared (artifact : StreamArtifact δ) (count : Nat)
  | answered (answer : Answer δ)

structure Closer (δ : Type) where
  id : String
  outcome : StreamOutcome
  stage : Stage δ

/-- The database, and the calls of `closeStream` of all connections. -/
structure LocalStore (δ : Type) where
  streams : String → Option (StreamRow δ) := fun _ => none
  closers : List (Closer δ) := []
  /-- The chunks that were answered, with what they were of. -/
  acknowledged : List (String × Nat × List StreamFields) := []

inductive LocalAction where
  | createStream (id : String) (drop : String → Bool)
  /-- One transaction. -/
  | appendStreamParts (id : String) (parts : List StreamFields)
  | closeStream (id : String) (outcome : StreamOutcome)
  | requireStream (i : Nat)
  | selectChunks (i : Nat)
  /-- One transaction. -/
  | commit (i : Nat)
  /-- Assembling or storing the document throws. -/
  | fail (i : Nat) (message : String)

/-- `max(seq)` -/
def lastChunk (chunks : List Chunk) : Nat := (chunks.map (·.seq)).foldr max 0

namespace LocalStore

variable {δ : Type} (assemble : List StreamFields → δ × Nat) (s : LocalStore δ)

def staged (i : Nat) (closer : Closer δ) (stage : Stage δ) : LocalStore δ :=
  { s with closers := s.closers.set i { closer with stage := stage } }

def appended (id : String) (parts : List StreamFields) : LocalStore δ :=
  match s.streams id with
  | none => s
  | some row =>
    if row.closed.isSome then s
    else
      let seq := lastChunk row.chunks + 1
      { s with
        streams := Function.update s.streams id (some (row.pushed seq parts))
        acknowledged := s.acknowledged ++ [(id, seq, parts)] }

/-- `const row = this.requireStream(streamId)`, and the first check. -/
def required (i : Nat) (closer : Closer δ) : LocalStore δ :=
  match s.streams closer.id with
  | none => s.staged i closer (.answered (unknownStream closer.id))
  | some row =>
    match row.closed with
    | some artifact => s.staged i closer (.answered (.record artifact))
    | none => s.staged i closer .found

def selected (i : Nat) (closer : Closer δ) : LocalStore δ :=
  let chunks := ((s.streams closer.id).map (·.chunks)).getD []
  s.staged i closer (.prepared (artifactInput assemble closer.outcome chunks) chunks.length)

def committed (i : Nat) (closer : Closer δ) (artifact : StreamArtifact δ) (count : Nat) :
    LocalStore δ :=
  match s.streams closer.id with
  | none => s.staged i closer (.answered (unknownStream closer.id))
  | some row =>
    match row.closed with
    | some fresh => s.staged i closer (.answered (.record fresh))
    | none =>
      if lastChunk row.chunks ≠ count then s.staged i closer .started
      else
        { s with
          streams := Function.update s.streams closer.id
            (some { row with closed := some artifact }) }.staged i closer
          (.answered (.record artifact))

def step : LocalAction → Option (LocalStore δ)
  | .createStream id drop =>
    if (s.streams id).isSome then none else some { s with streams := created s.streams id drop }
  | .appendStreamParts id parts =>
    match checkStreamParts parts with
    | .error _ => some s
    | .ok _ => some (s.appended id parts)
  | .closeStream id outcome => some { s with closers := s.closers ++ [⟨id, outcome, .started⟩] }
  | .requireStream i => s.closers[i]?.bind fun closer =>
    match closer.stage with
    | .started => some (s.required i closer)
    | _ => none
  | .selectChunks i => s.closers[i]?.bind fun closer =>
    match closer.stage with
    | .found => some (s.selected assemble i closer)
    | _ => none
  | .commit i => s.closers[i]?.bind fun closer =>
    match closer.stage with
    | .prepared artifact count => some (s.committed i closer artifact count)
    | _ => none
  | .fail i message => s.closers[i]?.bind fun closer =>
    match closer.stage with
    | .prepared _ _ => some (s.staged i closer (.answered (.threw message)))
    | _ => none

end LocalStore

section Local

variable {δ : Type} (assemble : List StreamFields → δ × Nat)

abbrev LocalRun : LocalStore δ → LocalStore δ → Prop := Steps.Run (LocalStore.step assemble)

/-- What a call knows: the stream it has found, and of an open one the first chunks. -/
def Knows (streams : String → Option (StreamRow δ)) (closer : Closer δ) : Prop :=
  match closer.stage with
  | .found => ∃ row, streams closer.id = some row
  | .prepared artifact count => ∃ row, streams closer.id = some row ∧ (row.closed = none →
      count ≤ row.accepted.length ∧
        artifact = artifactOf assemble closer.outcome (row.accepted.take count))
  | _ => True

structure LocalInv (s : LocalStore δ) : Prop where
  sound : StreamsSound assemble s.streams
  knows : ∀ closer ∈ s.closers, Knows assemble s.streams closer
  acknowledged : ∀ id seq parts, (id, seq, parts) ∈ s.acknowledged → ∃ row,
    s.streams id = some row ∧ 0 < seq ∧ row.accepted[seq - 1]? = some parts

variable {assemble} {s s' : LocalStore δ}

theorem lastChunk_eq {row : StreamRow δ} (h : row.Sound assemble) (hopen : row.closed = none) :
    lastChunk row.chunks = row.accepted.length := by
  have hrange : ∀ n s, (List.range' (s + 1) (n + 1)).foldr max 0 = s + n + 1 := by
    intro n
    induction n with
    | zero => exact fun s => Nat.max_zero _
    | succ n ih =>
      intro s
      rw [List.range'_succ, List.foldr_cons, ih]
      omega
  unfold lastChunk
  rw [h.seqs hopen]
  cases row.accepted.length with
  | zero => rfl
  | succ n => simpa using hrange n 0

/-- What is known of a stream stays true, whoever writes. -/
theorem Knows.later {streams streams' : String → Option (StreamRow δ)}
    (h : RowStep assemble streams streams') {closer : Closer δ}
    (hknows : Knows assemble streams closer) : Knows assemble streams' closer := by
  unfold Knows at hknows ⊢
  cases hstage : closer.stage with
  | started => trivial
  | found =>
    rw [hstage] at hknows
    obtain ⟨row, hrow⟩ := hknows
    obtain ⟨row', hrow', -⟩ := h.row hrow
    exact ⟨row', hrow'⟩
  | prepared artifact count =>
    rw [hstage] at hknows
    obtain ⟨row, hrow, hopen⟩ := hknows
    obtain ⟨row', hrow', ⟨more, hmore⟩, hback⟩ := h.row hrow
    refine ⟨row', hrow', fun hopen' => ?_⟩
    obtain ⟨hcount, hartifact⟩ := hopen (hback hopen')
    rw [← hmore, List.length_append, List.take_append_of_le_length hcount]
    exact ⟨Nat.le_add_right_of_le hcount, hartifact⟩
  | answered answer => trivial

namespace LocalInv

/-- A call goes on. -/
theorem staged (h : LocalInv assemble s) (i : Nat) (closer : Closer δ) {stage : Stage δ}
    (hknows : Knows assemble s.streams { closer with stage := stage }) :
    LocalInv assemble (s.staged i closer stage) := by
  refine ⟨h.sound, fun other hother => ?_, h.acknowledged⟩
  rcases List.mem_or_eq_of_mem_set hother with hmem | rfl
  · exact h.knows other hmem
  · exact hknows

/-- The streams change. -/
theorem written (h : LocalInv assemble s) {streams' : String → Option (StreamRow δ)}
    (hstep : RowStep assemble s.streams streams') :
    LocalInv assemble { s with streams := streams' } := by
  refine ⟨hstep.sound h.sound, fun closer hmem => (h.knows closer hmem).later hstep,
    fun id seq parts hmem => ?_⟩
  obtain ⟨row, hrow, hpos, hat⟩ := h.acknowledged id seq parts hmem
  obtain ⟨row', hrow', hat'⟩ := hstep.acknowledged hrow hat
  exact ⟨row', hrow', hpos, hat'⟩

theorem append (h : LocalInv assemble s) (id : String) (parts : List StreamFields) :
    LocalInv assemble (s.appended id parts) ∧
      RowStep assemble s.streams (s.appended id parts).streams := by
  unfold LocalStore.appended
  split
  · exact ⟨h, .same⟩
  · rename_i row hrow
    split
    · exact ⟨h, .same⟩
    · rename_i hsome
      have hopen : row.closed = none := by simpa using hsome
      have hstep : RowStep assemble s.streams (Function.update s.streams id
          (some (row.pushed (lastChunk row.chunks + 1) parts))) := by
        rw [lastChunk_eq (h.sound id row hrow) hopen]
        exact .append id row parts hrow hopen
      have hwritten := h.written hstep
      refine ⟨⟨hwritten.sound, hwritten.knows, fun id' seq parts' hmem => ?_⟩, hstep⟩
      rcases List.mem_append.mp hmem with hold | hnew
      · exact hwritten.acknowledged id' seq parts' hold
      · cases List.mem_singleton.mp hnew
        refine ⟨_, Function.update_self .., Nat.succ_pos _, ?_⟩
        rw [lastChunk_eq (h.sound id row hrow) hopen]
        exact List.getElem?_concat_length ..

/-- With the last chunk unchanged nobody has appended. -/
theorem commit (h : LocalInv assemble s) (i : Nat) {closer : Closer δ}
    (hmem : closer ∈ s.closers) {artifact : StreamArtifact δ} {count : Nat}
    (hstage : closer.stage = .prepared artifact count) :
    LocalInv assemble (s.committed i closer artifact count) ∧
      RowStep assemble s.streams (s.committed i closer artifact count).streams := by
  unfold LocalStore.committed
  split
  · exact ⟨h.staged i closer trivial, .same⟩
  · rename_i row hrow
    split
    · exact ⟨h.staged i closer trivial, .same⟩
    · rename_i hopen
      split
      · exact ⟨h.staged i closer trivial, .same⟩
      · rename_i hcount
        have hknows := h.knows closer hmem
        unfold Knows at hknows
        rw [hstage] at hknows
        obtain ⟨same, hsame, hprepared⟩ := hknows
        cases hsame.symm.trans hrow
        have hsound := h.sound closer.id row hrow
        obtain ⟨-, hartifact⟩ := hprepared hopen
        rw [← not_not.mp hcount, lastChunk_eq hsound hopen, List.take_length,
          ← hsound.parts hopen] at hartifact
        have hstep : RowStep assemble s.streams (Function.update s.streams closer.id
            (some { row with closed := some artifact })) := by
          rw [hartifact]
          exact .close closer.id row closer.outcome hrow hopen
        exact ⟨(h.written hstep).staged i closer trivial, hstep⟩

theorem step (h : LocalInv assemble s) (hstep : Steps.Step (LocalStore.step assemble) s s') :
    LocalInv assemble s' ∧ RowStep assemble s.streams s'.streams := by
  obtain ⟨action, haction⟩ := hstep
  cases action with
  | createStream id drop =>
    simp only [LocalStore.step] at haction
    split at haction
    · cases haction
    · rename_i habsent
      rw [← Option.some.inj haction]
      have hcreate : RowStep assemble s.streams (created s.streams id drop) :=
        .create id drop (by simpa using habsent)
      exact ⟨h.written hcreate, hcreate⟩
  | appendStreamParts id parts =>
    simp only [LocalStore.step] at haction
    split at haction
    · rw [← Option.some.inj haction]
      exact ⟨h, .same⟩
    · rw [← Option.some.inj haction]
      exact h.append id parts
  | closeStream id outcome =>
    rw [← Option.some.inj haction]
    refine ⟨⟨h.sound, fun closer hmem => ?_, h.acknowledged⟩, .same⟩
    rcases List.mem_append.mp hmem with hold | hnew
    · exact h.knows closer hold
    · rw [List.mem_singleton.mp hnew]
      trivial
  | requireStream i =>
    obtain ⟨closer, hcloser, hrun⟩ := Option.bind_eq_some_iff.mp haction
    split at hrun
    · rw [← Option.some.inj hrun]
      unfold LocalStore.required
      split
      · exact ⟨h.staged i closer trivial, .same⟩
      · rename_i row hrow
        split
        · exact ⟨h.staged i closer trivial, .same⟩
        · exact ⟨h.staged i closer ⟨row, hrow⟩, .same⟩
    · cases hrun
  | selectChunks i =>
    obtain ⟨closer, hcloser, hrun⟩ := Option.bind_eq_some_iff.mp haction
    split at hrun
    · rename_i hstage
      have hknows := h.knows closer (List.mem_of_getElem? hcloser)
      unfold Knows at hknows
      rw [hstage] at hknows
      obtain ⟨row, hrow⟩ := hknows
      rw [← Option.some.inj hrun]
      refine ⟨h.staged i closer ⟨row, hrow, fun hopen => ?_⟩, .same⟩
      have hsound := h.sound closer.id row hrow
      rw [hrow]
      change row.chunks.length ≤ row.accepted.length ∧
        artifactOf assemble closer.outcome (row.chunks.map (·.parts)) =
          artifactOf assemble closer.outcome (row.accepted.take row.chunks.length)
      rw [hsound.length_chunks hopen, hsound.parts hopen, List.take_length]
      exact ⟨Nat.le_refl _, rfl⟩
    · cases hrun
  | commit i =>
    obtain ⟨closer, hcloser, hrun⟩ := Option.bind_eq_some_iff.mp haction
    split at hrun
    · rename_i artifact count hstage
      rw [← Option.some.inj hrun]
      exact h.commit i (List.mem_of_getElem? hcloser) hstage
    · cases hrun
  | fail i message =>
    obtain ⟨closer, hcloser, hrun⟩ := Option.bind_eq_some_iff.mp haction
    split at hrun
    · rw [← Option.some.inj hrun]
      exact ⟨h.staged i closer trivial, .same⟩
    · cases hrun

theorem run (h : LocalInv assemble s) (hrun : LocalRun assemble s s') :
    LocalInv assemble s' ∧ TranscriptRun (transcripts s.streams) (transcripts s'.streams) := by
  induction hrun with
  | refl => exact ⟨h, .refl⟩
  | tail _ hstep ih =>
    have hnext := ih.1.step hstep
    exact ⟨hnext.1, ih.2.trans hnext.2.transcripts⟩

theorem initial : LocalInv assemble ({} : LocalStore δ) where
  sound _ _ h := by cases h
  knows _ h := absurd h List.not_mem_nil
  acknowledged _ _ _ h := absurd h List.not_mem_nil

end LocalInv

/-- **With any number of connections to one database the same holds, without a lock: a close that
others have overtaken assembles the stream anew.** -/
theorem localStore_closes (h : LocalRun assemble {} s) (hlater : LocalRun assemble s s') :
    (∀ id row artifact, s.streams id = some row → row.closed = some artifact →
      artifact = artifactOf assemble artifact.outcome row.accepted ∧
      ∃ row', s'.streams id = some row' ∧ row'.closed = some artifact ∧
        row'.accepted = row.accepted) ∧
    ∀ id seq parts, (id, seq, parts) ∈ s.acknowledged → ∃ row,
      s.streams id = some row ∧ 0 < seq ∧ row.accepted[seq - 1]? = some parts := by
  obtain ⟨hinv, -⟩ := LocalInv.initial.run h
  obtain ⟨hinv', hrun⟩ := hinv.run hlater
  exact ⟨fun id row artifact hrow hclosed =>
    ⟨(hinv.sound id row hrow).complete artifact hclosed,
      artifact_stays hinv.sound hinv'.sound hrun hrow hclosed⟩, hinv.acknowledged⟩

/-- Another connection appends while a close assembles. -/
def overtakenClose : List LocalAction :=
  [.createStream "st_1" fun _ => false, .appendStreamParts "st_1" [textPart],
    .closeStream "st_1" .completed, .requireStream 0, .selectChunks 0,
    .appendStreamParts "st_1" [textPart], .commit 0, .requireStream 0, .selectChunks 0, .commit 0]

theorem localStore_closes_overtakenClose : ∃ s row artifact,
    Steps.perform (LocalStore.step counted) overtakenClose {} = some s ∧
      s.streams "st_1" = some row ∧ row.closed = some artifact ∧ row.accepted.length = 2 ∧
      artifact = artifactOf counted artifact.outcome row.accepted := by
  obtain ⟨s, hs⟩ : ∃ s, Steps.perform (LocalStore.step counted) overtakenClose {} = some s :=
    ⟨_, rfl⟩
  have hclosed := (localStore_closes (Steps.run_of_perform hs) .refl).1 "st_1"
  obtain rfl := Option.some.inj hs
  exact ⟨_, _, _, rfl, rfl, rfl, rfl, (hclosed _ _ rfl rfl).1⟩

end Local

end Autobuild.StreamCloses
