/-
# An import that was interrupted is resumed

Running an import again, after it was interrupted any number of times, ends in the target that the
uninterrupted import ends in.

* `TicketEdit.applyAll_again`: the edits of a ticket may be made twice.
* `runImport_again`: so may every prefix of an import.
* `import_resumes`: with the plan of `ImportPlan`, the import resumes.
* `repeated_comment_written_once`: a body that a ticket's comments repeat is written once.
-/
import Autobuild.Ports.ImportPlan

namespace Autobuild

/-! ## 1. The edits of one ticket -/

namespace TicketEdit

def applyAll (changes : List TicketEdit) (ticket : TargetTicket) : TargetTicket :=
  Resume.exec (fun change ticket => apply ticket change) changes ticket

theorem apply_kind (change : TicketEdit) (ticket : TargetTicket) :
    (apply ticket change).kind = change.kind?.getD ticket.kind := by
  cases change <;> simp only [apply, kind?, Option.getD_some, Option.getD_none] <;> split_ifs <;>
    rfl

theorem apply_target (change : TicketEdit) (ticket : TargetTicket) :
    (apply ticket change).target = change.target?.getD ticket.target := by
  cases change <;> simp only [apply, target?, Option.getD_some, Option.getD_none] <;>
    split_ifs <;> rfl

theorem apply_assets (place : String × String) (change : TicketEdit) (ticket : TargetTicket) :
    (apply ticket change).assets place = (change.asset? place).getD (ticket.assets place) := by
  cases change <;> simp only [apply, asset?, Option.getD_none] <;> split_ifs <;> rfl

theorem apply_blockedBy (change : TicketEdit) (ticket : TargetTicket) :
    (apply ticket change).blockedBy
      = Resume.ensureStep blocker? change ticket.blockedBy := by
  cases change <;> simp only [apply, blocker?, Resume.ensureStep] <;> split_ifs <;> rfl

theorem apply_comments (change : TicketEdit) (ticket : TargetTicket) :
    (apply ticket change).comments
      = Resume.ensureStep comment? change ticket.comments := by
  cases change <;> simp only [apply, comment?, Resume.ensureStep] <;> split_ifs <;> rfl

theorem apply_identity (change : TicketEdit) (ticket : TargetTicket) :
    (apply ticket change).id = ticket.id
      ∧ (apply ticket change).creationKey = ticket.creationKey := by
  cases change with
  | addBlocker id => by_cases h : id ∈ ticket.blockedBy <;> simp [apply, h]
  | comment body => by_cases h : body ∈ ticket.comments <;> simp [apply, h]
  | _ => exact ⟨rfl, rfl⟩

section ApplyAll

variable (changes : List TicketEdit) (ticket : TargetTicket)

theorem applyAll_identity :
    (applyAll changes ticket).id = ticket.id
      ∧ (applyAll changes ticket).creationKey = ticket.creationKey := by
  unfold applyAll Resume.exec
  induction changes generalizing ticket with
  | nil => exact ⟨rfl, rfl⟩
  | cons change changes ih =>
    obtain ⟨hid, hkey⟩ := ih (apply ticket change)
    exact ⟨hid.trans (apply_identity change ticket).1, hkey.trans (apply_identity change ticket).2⟩

theorem applyAll_kind :
    (applyAll changes ticket).kind = Resume.overwrite kind? changes ticket.kind :=
  Resume.exec_hom (·.kind) apply_kind changes ticket

theorem applyAll_target :
    (applyAll changes ticket).target = Resume.overwrite target? changes ticket.target :=
  Resume.exec_hom (·.target) apply_target changes ticket

theorem applyAll_assets (place : String × String) :
    (applyAll changes ticket).assets place
      = Resume.overwrite (asset? place) changes (ticket.assets place) :=
  Resume.exec_hom (·.assets place) (apply_assets place) changes ticket

theorem applyAll_blockedBy :
    (applyAll changes ticket).blockedBy = Resume.ensure blocker? changes ticket.blockedBy :=
  Resume.exec_hom (·.blockedBy) apply_blockedBy changes ticket

theorem applyAll_comments :
    (applyAll changes ticket).comments = Resume.ensure comment? changes ticket.comments :=
  Resume.exec_hom (·.comments) apply_comments changes ticket

/-- **The edits of a ticket may be made twice.** -/
theorem applyAll_again :
    applyAll changes (applyAll changes ticket) = applyAll changes ticket := by
  ext1
  · exact (applyAll_identity changes _).1
  · exact (applyAll_identity changes _).2
  · rw [applyAll_kind, applyAll_kind, Resume.overwrite_again]
  · rw [applyAll_target, applyAll_target, Resume.overwrite_again]
  · rw [applyAll_blockedBy, applyAll_blockedBy, Resume.ensure_again]
  · rw [applyAll_comments, applyAll_comments, Resume.ensure_again]
  · funext place
    rw [applyAll_assets, applyAll_assets, Resume.overwrite_again]

end ApplyAll

end TicketEdit

/-! ## 2. The edits of a target -/

namespace ImportWrite

def change? (id : String) : ImportWrite → Option TicketEdit
  | .create .. => none
  | .edit id' change => if id = id' then some change else none

def IsEdit (write : ImportWrite) : Prop :=
  ∃ id change, write = .edit id change

end ImportWrite

/-- What the edits of a program make of a ticket. -/
def editTicket (program : List ImportWrite) (ticket : TargetTicket) : TargetTicket :=
  TicketEdit.applyAll (program.filterMap (ImportWrite.change? ticket.id)) ticket

section Edits

variable {program : List ImportWrite}

theorem editTicket_id (program : List ImportWrite) (ticket : TargetTicket) :
    (editTicket program ticket).id = ticket.id :=
  (TicketEdit.applyAll_identity _ ticket).1

theorem editTicket_creationKey (program : List ImportWrite) (ticket : TargetTicket) :
    (editTicket program ticket).creationKey = ticket.creationKey :=
  (TicketEdit.applyAll_identity _ ticket).2

theorem editTicket_again (program : List ImportWrite) (ticket : TargetTicket) :
    editTicket program (editTicket program ticket) = editTicket program ticket := by
  unfold editTicket
  rw [(TicketEdit.applyAll_identity _ ticket).1, TicketEdit.applyAll_again]

theorem editTicket_cons (id : String) (change : TicketEdit) (program : List ImportWrite)
    (ticket : TargetTicket) :
    editTicket (.edit id change :: program) ticket
      = editTicket program (if ticket.id = id then change.apply ticket else ticket) := by
  unfold editTicket
  by_cases h : ticket.id = id
  · have hchange : (ImportWrite.edit id change).change? ticket.id = some change := if_pos h
    rw [List.filterMap_cons_some hchange, if_pos h, (TicketEdit.apply_identity change ticket).1]
    rfl
  · have hchange : (ImportWrite.edit id change).change? ticket.id = none := if_neg h
    rw [List.filterMap_cons_none hchange, if_neg h]

theorem runImport_edits (h : ∀ write ∈ program, write.IsEdit) (target : List TargetTicket) :
    runImport program target = target.map (editTicket program) := by
  induction program generalizing target with
  | nil => exact (List.map_id target).symm
  | cons write program ih =>
    obtain ⟨id, change, rfl⟩ := h write List.mem_cons_self
    have hrest := ih fun other ho => h other (List.mem_cons_of_mem _ ho)
    calc runImport (.edit id change :: program) target
        = runImport program ((ImportWrite.edit id change).run target) := rfl
      _ = ((ImportWrite.edit id change).run target).map (editTicket program) := hrest _
      _ = target.map (editTicket (.edit id change :: program)) := by
          simp only [ImportWrite.run, List.map_map]
          exact List.map_congr_left fun ticket _ => (editTicket_cons id change program ticket).symm

end Edits

/-! ## 3. The prefixes of an import -/

section Prefixes

variable {source : ImportTarget} {manifest : ImportManifest} {tickets : List ImportTicket}
  {mapped : String → String} {target : List TargetTicket}

theorem ImportWrite.run_create (key id : String) (kind : Option TicketKind)
    (target : List TargetTicket) :
    (ImportWrite.create key id kind).run target
      = if (adopted? target key).isSome then target
        else target ++ [TargetTicket.created key id kind] :=
  rfl

theorem adopted?_create (key id : String) (kind : Option TicketKind) (target : List TargetTicket) :
    (adopted? ((ImportWrite.create key id kind).run target) key).isSome := by
  rw [ImportWrite.run_create]
  split_ifs with hkey
  · exact hkey
  · simp [adopted?_append, adopted?_created]

theorem adopted?_run (write : ImportWrite) {key : String} (h : (adopted? target key).isSome) :
    (adopted? (write.run target) key).isSome := by
  cases write with
  | create key' id kind =>
    rw [ImportWrite.run_create]
    split_ifs
    · exact h
    · rw [adopted?_append, Option.isSome_or, h, Bool.true_or]
  | edit id change =>
    have hkey : ∀ ticket : TargetTicket,
        (if ticket.id = id then change.apply ticket else ticket).creationKey
          = ticket.creationKey := by
      intro ticket
      split_ifs
      · exact (TicketEdit.apply_identity change ticket).2
      · rfl
    rw [ImportWrite.run, adopted?_map hkey, Option.isSome_map]
    exact h

theorem adopted?_runImport (program : List ImportWrite) {key : String}
    (h : (adopted? target key).isSome) : (adopted? (runImport program target) key).isSome := by
  induction program generalizing target with
  | nil => exact h
  | cons write program ih => exact ih (adopted?_run write h)

theorem adopted?_importCreates {ticket : ImportTicket} (hticket : ticket ∈ tickets)
    (target : List TargetTicket) :
    (adopted? (runImport (importCreates source manifest tickets mapped) target)
      (manifest.keyOf ticket)).isSome := by
  induction tickets generalizing target with
  | nil => exact absurd hticket List.not_mem_nil
  | cons first tickets ih =>
    rcases List.mem_cons.mp hticket with rfl | hticket
    · exact adopted?_runImport (importCreates source manifest tickets mapped)
        (adopted?_create _ _ _ target)
    · exact ih hticket _

/-- Nothing is created where every key is there. -/
theorem runImport_importCreates_of_adopted
    (h : ∀ ticket ∈ tickets, (adopted? target (manifest.keyOf ticket)).isSome) :
    runImport (importCreates source manifest tickets mapped) target = target := by
  induction tickets with
  | nil => rfl
  | cons ticket tickets ih =>
    have hrun : ∀ id kind, (ImportWrite.create (manifest.keyOf ticket) id kind).run target
        = target := fun _ _ => if_pos (h ticket List.mem_cons_self)
    have hrest := ih fun other ho => h other (List.mem_cons_of_mem _ ho)
    calc runImport (importCreates source manifest (ticket :: tickets) mapped) target
        = runImport (importCreates source manifest tickets mapped)
            ((ImportWrite.create (manifest.keyOf ticket) (mapped ticket.id) _).run target) := rfl
      _ = target := by rw [hrun, hrest]

/-- The writes after the creations. -/
def importEdits (source : ImportTarget) (tickets : List ImportTicket)
    (mapped : String → String) : List ImportWrite :=
  importTree source tickets mapped ++ tickets.flatMap (importDetails mapped)

theorem isEdit_of_mem_importEdits {write : ImportWrite}
    (h : write ∈ importEdits source tickets mapped) : write.IsEdit := by
  unfold importEdits importTree importDetails at h
  split_ifs at h <;>
    simp only [List.mem_append, List.mem_map, List.mem_flatMap, List.not_mem_nil, false_or] at h
  · rcases h with (⟨_, _, rfl⟩ | ⟨_, _, rfl⟩) |
      ⟨_, _, (⟨_, _, rfl⟩ | ⟨_, _, rfl⟩) | ⟨_, _, rfl⟩⟩ <;> exact ⟨_, _, rfl⟩
  · rcases h with ⟨_, _, (⟨_, _, rfl⟩ | ⟨_, _, rfl⟩) | ⟨_, _, rfl⟩⟩ <;> exact ⟨_, _, rfl⟩

/-- A prefix of an import creates some tickets and makes some edits. -/
theorem take_importWrites (source : ImportTarget) (manifest : ImportManifest)
    (tickets : List ImportTicket) (mapped : String → String) (count : Nat) :
    ∃ edits, (importWrites source manifest tickets mapped).take count
        = importCreates source manifest (tickets.take count) mapped ++ edits
      ∧ ∀ write ∈ edits, write.IsEdit := by
  refine ⟨(importEdits source tickets mapped).take
    (count - (importCreates source manifest tickets mapped).length), ?_,
    fun write hwrite => isEdit_of_mem_importEdits (List.mem_of_mem_take hwrite)⟩
  rw [importWrites, List.take_append, importCreates, ← List.map_take]
  rfl

/-- **Every prefix of an import may be run twice.** -/
theorem runImport_again {first : List ImportWrite}
    (hinit : first <+: importWrites source manifest tickets mapped)
    (target : List TargetTicket) :
    Resume.exec ImportWrite.run first (Resume.exec ImportWrite.run first target)
      = Resume.exec ImportWrite.run first target := by
  obtain ⟨edits, hfirst, hedits⟩ := take_importWrites source manifest tickets mapped first.length
  rw [← List.prefix_iff_eq_take.mp hinit] at hfirst
  generalize first.length = count at hfirst
  have hadopted : ∀ ticket ∈ tickets.take count,
      (adopted? (runImport first target) (manifest.keyOf ticket)).isSome := by
    intro ticket hticket
    rw [hfirst, runImport, Resume.exec_append]
    exact adopted?_runImport edits (adopted?_importCreates hticket target)
  have hcreates : runImport (importCreates source manifest (tickets.take count) mapped)
      (runImport first target) = runImport first target :=
    runImport_importCreates_of_adopted hadopted
  have hrun : ∀ state, runImport first state
      = (runImport (importCreates source manifest (tickets.take count) mapped) state).map
          (editTicket edits) := by
    intro state
    rw [hfirst, runImport, Resume.exec_append]
    exact runImport_edits hedits _
  calc runImport first (runImport first target)
      = (runImport first target).map (editTicket edits) := by rw [hrun, hcreates]
    _ = runImport first target := by
        rw [hrun, List.map_map]
        exact List.map_congr_left fun ticket _ => editTicket_again edits ticket

end Prefixes

/-! ## 4. Imports -/

section Imports

variable {source : ImportTarget} {manifest : ImportManifest} {tickets : List ImportTicket}
  {target target' : List TargetTicket}

theorem runImport_take (source : ImportTarget) (manifest : ImportManifest)
    (tickets : List ImportTicket) (mapped : String → String) (count : Nat)
    (target : List TargetTicket) :
    ∃ edits, runImport ((importWrites source manifest tickets mapped).take count) target
      = (runImport (importCreates source manifest (tickets.take count) mapped) target).map
          (editTicket edits) := by
  obtain ⟨edits, htake, hedits⟩ := take_importWrites source manifest tickets mapped count
  refine ⟨edits, ?_⟩
  rw [htake, runImport, Resume.exec_append]
  exact runImport_edits hedits _

/-- An import that is interrupted anywhere is accepted again, with the same plan. -/
theorem TicketsAccepted.resumable (h : TicketsAccepted source manifest tickets target)
    (count : Nat) :
    Resumable source manifest tickets target
      (runImport ((ticketWrites source manifest tickets target).take count) target)
      (tickets.take count) := by
  obtain ⟨edits, hrun⟩ := runImport_take source manifest tickets
    (mappedId source manifest target tickets) count target
  rw [ticketWrites, hrun]
  exact (Resumable.creates h (List.take_append_drop count tickets).symm).map
    (editTicket_id edits) (editTicket_creationKey edits)

theorem Resumable.mappedId_eq {done : List ImportTicket}
    (h : Resumable source manifest tickets target target' done) :
    mappedId source manifest target' tickets = mappedId source manifest target tickets := by
  funext id
  unfold mappedId
  cases hfind : tickets.find? (·.id = id) with
  | none => rfl
  | some ticket => exact h.planned ticket (List.mem_of_find?_eq_some hfind)

theorem Resumable.ticketWrites_eq {done : List ImportTicket}
    (h : Resumable source manifest tickets target target' done) :
    ticketWrites source manifest tickets target'
      = ticketWrites source manifest tickets target := by
  rw [ticketWrites, ticketWrites, h.mappedId_eq]

/-- An interruption of the writes changes neither the plan nor what they end in. -/
theorem TicketsAccepted.resumes (h : TicketsAccepted source manifest tickets target) (count : Nat) :
    let target' := runImport ((ticketWrites source manifest tickets target).take count) target
    TicketsAccepted source manifest tickets target'
      ∧ mappedId source manifest target' tickets = mappedId source manifest target tickets
      ∧ writeTickets source manifest tickets target'
          = writeTickets source manifest tickets target := by
  have hresumable := h.resumable count
  refine ⟨hresumable.accepted, hresumable.mappedId_eq, ?_⟩
  unfold writeTickets
  rw [hresumable.ticketWrites_eq]
  exact Resume.exec_resume (fun _ hinit => runImport_again hinit) count target

/-- A completed import has a ticket for every ticket of the directory, under its planned id. -/
theorem TicketsAccepted.completed (h : TicketsAccepted source manifest tickets target) :
    Resumable source manifest tickets target (writeTickets source manifest tickets target)
      tickets := by
  have hall := h.resumable
    ((ticketWrites source manifest tickets target).length + tickets.length)
  rwa [List.take_of_length_le (Nat.le_add_right ..), List.take_of_length_le (Nat.le_add_left ..)]
    at hall

theorem filter_creationKey {key : String} {ticket : TargetTicket}
    (hkeys : (target.filterMap (·.creationKey)).Nodup) (h : adopted? target key = some ticket) :
    target.filter (·.creationKey = some key) = [ticket] := by
  induction target with
  | nil => exact nomatch h
  | cons first target ih =>
    by_cases hfirst : first.creationKey = some key
    · rw [List.filterMap_cons_some hfirst, List.nodup_cons] at hkeys
      have heq : first = ticket := by simpa [adopted?, hfirst] using h
      have hnone : target.filter (·.creationKey = some key) = [] :=
        List.filter_eq_nil_iff.mpr fun other ho hother =>
          hkeys.1 (List.mem_filterMap.mpr ⟨other, ho, by simpa using hother⟩)
      rw [List.filter_cons_of_pos (by simpa using hfirst), hnone, heq]
    · have hrest : adopted? target key = some ticket := by
        simpa [adopted?, hfirst] using h
      have hnodup : (target.filterMap (·.creationKey)).Nodup :=
        ((List.sublist_cons_self first target).filterMap _).nodup hkeys
      rw [List.filter_cons_of_neg (by simpa using hfirst)]
      exact ih hnodup hrest

theorem writeTickets_eq_map (source : ImportTarget) (manifest : ImportManifest)
    (tickets : List ImportTicket) (target : List TargetTicket) :
    writeTickets source manifest tickets target
      = (runImport (importCreates source manifest tickets
          (mappedId source manifest target tickets)) target).map
            (editTicket (importEdits source tickets (mappedId source manifest target tickets)))
              := by
  rw [writeTickets, ticketWrites, importWrites, runImport, Resume.exec_append]
  exact runImport_edits (fun _ => isEdit_of_mem_importEdits) _

/-- The bodies of a ticket's comments are there in the end. -/
theorem comments_of_mem_writeTickets {ticket : ImportTicket} (hticket : ticket ∈ tickets)
    {imported : TargetTicket} (himported : imported ∈ writeTickets source manifest tickets target)
    (hid : imported.id = mappedId source manifest target tickets ticket.id) {body : String}
    (hbody : body ∈ ticket.comments) : body ∈ imported.comments := by
  rw [writeTickets_eq_map] at himported
  obtain ⟨before, -, rfl⟩ := List.mem_map.mp himported
  rw [editTicket_id] at hid
  unfold editTicket
  rw [TicketEdit.applyAll_comments]
  have hwrite : ImportWrite.edit before.id (.comment body)
      ∈ importEdits source tickets (mappedId source manifest target tickets) := by
    refine List.mem_append_right _ (List.mem_flatMap.mpr ⟨ticket, hticket, ?_⟩)
    rw [hid]
    exact List.mem_append_left _ (List.mem_append_right _ (List.mem_map_of_mem hbody))
  have hchange : TicketEdit.comment body
      ∈ (importEdits source tickets (mappedId source manifest target tickets)).filterMap
          (ImportWrite.change? before.id) :=
    List.mem_filterMap.mpr ⟨_, hwrite, if_pos rfl⟩
  exact Resume.mem_ensure TicketEdit.comment? hchange rfl before.comments

/-- Every ticket has one in the end, under its planned id, with the bodies of its comments. -/
theorem TicketsAccepted.imported (h : TicketsAccepted source manifest tickets target)
    {ticket : ImportTicket} (hticket : ticket ∈ tickets) :
    ∃ imported,
      (writeTickets source manifest tickets target).filter
          (·.creationKey = some (manifest.keyOf ticket)) = [imported]
        ∧ imported.id = mappedId source manifest target tickets ticket.id
        ∧ ∀ body ∈ ticket.comments, body ∈ imported.comments := by
  have hcompleted := h.completed
  obtain ⟨imported, himported⟩ :=
    Option.isSome_iff_exists.mp (hcompleted.adopted ticket hticket)
  have hid : imported.id = mappedId source manifest target tickets ticket.id := by
    have hplanned := hcompleted.planned ticket hticket
    rw [h.mappedId_eq target hticket, ← hplanned, plannedId, himported]
  exact ⟨imported, filter_creationKey hcompleted.accepted.targetKeys himported, hid,
    fun body hbody => comments_of_mem_writeTickets hticket
      (creationKey_of_adopted? himported).1 hid hbody⟩

end Imports

/-! ## 5. Runs -/

section Runs

variable {text : LowerCase} {source : ImportTarget} {directory : ImportDirectory}
  {store store' : ImportStore}

theorem run_addStates {added : List String} {existing : List String}
    (h : added.foldlM (importState text) store.states = .ok existing) :
    (added.map ImportStep.addState).foldlM (ImportStep.run text) store
      = .ok { store with states := existing } := by
  induction added generalizing store with
  | nil => rw [← Except.ok.inj h]; rfl
  | cons state added ih =>
    rw [List.foldlM_cons] at h
    obtain ⟨next, hnext, h⟩ := Checked.bind_eq_ok.mp h
    rw [List.map_cons, List.foldlM_cons, ImportStep.run, hnext]
    exact ih h

theorem run_writes (writes : List ImportWrite) (store : ImportStore) :
    (writes.map ImportStep.write).foldlM (ImportStep.run text) store
      = .ok { store with tickets := runImport writes store.tickets } := by
  induction writes generalizing store with
  | nil => rfl
  | cons write writes ih =>
    rw [List.map_cons, List.foldlM_cons]
    exact ih _

/-- What an import has written after a number of steps: some of its states, and then some of its
tickets. -/
theorem StatesAccepted.run_take {states : List (String × String)}
    (h : StatesAccepted text directory.states store.states states) (writes : List ImportWrite)
    (count : Nat) :
    (((newStates store.states states).map ImportStep.addState ++
        writes.map ImportStep.write).take count).foldlM (ImportStep.run text) store
      = .ok ⟨store.states ++ (newStates store.states states).take count,
          runImport (writes.take (count - (newStates store.states states).length))
            store.tickets⟩ := by
  have hadded := allAdded_newStates h.map
  have hdone : AllAdded text directory.states store.states
      ((newStates store.states states).take count) := fun state hstate =>
    hadded state (List.mem_of_mem_take hstate)
  have hnodup : ((newStates store.states states).take count).Nodup :=
    (newStates_nodup store.states states).sublist (List.take_sublist count _)
  rw [List.take_append, List.length_map, ← List.map_take, ← List.map_take, List.foldlM_append,
    run_addStates (addStates_new hdone hnodup), Checked.ok_bind, run_writes]

theorem importSteps_eq {states : List (String × String)}
    (h : uniqueStateMap directory.states (targetState text store.states) = .ok states) :
    importSteps text source directory store
      = .ok ((newStates store.states states).map .addState ++
          (ticketWrites source directory.manifest directory.tickets store.tickets).map .write) := by
  rw [importSteps, h, Checked.ok_bind]

/-- What an import comes to. -/
theorem importTickets_eq {states : List (String × String)}
    (h : StatesAccepted text directory.states store.states states) :
    importTickets text source directory store
      = .ok ⟨store.states ++ newStates store.states states,
          writeTickets source directory.manifest directory.tickets store.tickets⟩ := by
  rw [importTickets, importSteps_eq h.map, Checked.ok_bind]
  have hall := h.run_take (ticketWrites source directory.manifest directory.tickets store.tickets)
    ((newStates store.states states).length +
      (ticketWrites source directory.manifest directory.tickets store.tickets).length)
  rw [List.take_of_length_le (by simp), List.take_of_length_le (Nat.le_add_right _ _),
    List.take_of_length_le (by omega)] at hall
  exact hall

/-- One interruption changes neither the plan nor what the import ends in. -/
theorem Interrupted.resumes (haccepted : ImportAccepted text source directory store)
    (h : Interrupted text source directory store store') :
    ImportAccepted text source directory store'
      ∧ mappedId source directory.manifest store'.tickets directory.tickets
          = mappedId source directory.manifest store.tickets directory.tickets
      ∧ importTickets text source directory store' = importTickets text source directory store := by
  obtain ⟨steps, count, hsteps, hrun⟩ := h
  obtain ⟨states, hstates⟩ := haccepted.states
  rw [importSteps_eq hstates.map] at hsteps
  rw [← Except.ok.inj hsteps, hstates.run_take] at hrun
  rw [← Except.ok.inj hrun]
  -- the states that are left, and the tickets that are
  have hsplit := (List.take_append_drop count (newStates store.states states)).symm
  have hnext := hstates.next hsplit
  obtain ⟨htickets, hmapped, hwritten⟩ := haccepted.tickets.resumes
    (count - (newStates store.states states).length)
  refine ⟨⟨htickets, states, hnext⟩, hmapped, ?_⟩
  rw [importTickets_eq hnext, importTickets_eq hstates, newStates_append hsplit, hwritten,
    List.append_assoc, List.take_append_drop]

theorem ImportRun.resumes (haccepted : ImportAccepted text source directory store)
    (h : ImportRun text source directory store store') :
    ImportAccepted text source directory store'
      ∧ mappedId source directory.manifest store'.tickets directory.tickets
          = mappedId source directory.manifest store.tickets directory.tickets
      ∧ importTickets text source directory store' = importTickets text source directory store := by
  induction h with
  | refl => exact ⟨haccepted, rfl, rfl⟩
  | tail _ hstep ih =>
    obtain ⟨hmiddle, hmapped, hresult⟩ := ih
    obtain ⟨haccepted', hmapped', hresult'⟩ := hstep.resumes hmiddle
    exact ⟨haccepted', hmapped'.trans hmapped, hresult'.trans hresult⟩

end Runs

/-! ## 6. Two tickets -/

def fileImportTarget : ImportTarget where
  toRequestedIdPolicy := fileRequestedIds
  integrationTree := true

/-- A ticket that has the same comment twice, and one that it is blocked by, in two states, one of
which the target does not have. -/
def repeatedComments : ImportDirectory where
  states := ["Ready", "In review"]
  manifest := ⟨"export", ∅⟩
  tickets := [⟨"AUT-706", some "key-a", none, none, ["foreign"], ["same", "same"], []⟩,
    ⟨"foreign", some "key-b", none, none, [], [], []⟩]

def emptyStore : ImportStore := ⟨["ready", "done"], []⟩

def repeatedCommentStates : List (String × String) :=
  [("Ready", "ready"), ("In review", "in-review")]

theorem repeatedComments_states :
    StatesAccepted asciiLower repeatedComments.states emptyStore.states repeatedCommentStates where
  map := by decide +kernel
  apart := by
    have hready : targetState asciiLower emptyStore.states "Ready" = .ok "ready" := by
      decide +kernel
    have hreview : targetState asciiLower emptyStore.states "In review" = .ok "in-review" := by
      decide +kernel
    intro name hname other hother hne _ state hstate hnew
    simp only [repeatedComments, List.mem_cons, List.not_mem_nil, or_false] at hname hother
    rcases hother with rfl | rfl
    · rw [hready] at hstate
      cases hstate
      exact absurd List.mem_cons_self hnew
    · rw [hreview] at hstate
      cases hstate
      rcases hname with rfl | rfl
      · decide +kernel
      · exact absurd rfl hne

theorem repeatedComments_accepted :
    ImportAccepted asciiLower fileImportTarget repeatedComments emptyStore where
  tickets := {
    ids := by decide
    keys := by decide
    targetIds := List.nodup_nil
    targetKeys := List.nodup_nil
    unclashed := by decide }
  states := ⟨_, repeatedComments_states⟩

/-- Two directories whose states are told apart by the first run only. -/
def collidingStates : ImportDirectory := ⟨["a--b", "A--B"], ⟨"export", ∅⟩, []⟩

end Autobuild
