/-
# The tree a listing is shown as

* `checkChain_ok`: over a sound listing the check of every ticket passes.
* `Placed`: what the tree holds once some of the tickets are placed.
* `ticketTree_stays_forest`: after any accepted writes every target is a node ticket of the
  source, no ticket is above itself, and the projection accepts any order of the listing and
  places every ticket once, under its target or at the root.
-/
import Autobuild.Ports.TicketForest

namespace Autobuild

open ObjectMap ParentMap

/-! ## 1. Entries -/

theorem TreeSound.perm {name : String} {tickets listing : List Ticket}
    (hsound : TreeSound name tickets) (hperm : listing.Perm tickets) : TreeSound name listing := by
  have hdistinct : (listing.map (·.ref.id)).Nodup :=
    ((hperm.map _).nodup_iff).mpr hsound.distinct
  refine ⟨fun t ht => hsound.source t (hperm.mem_iff.mp ht),
    fun t ht => hsound.nonblank t (hperm.mem_iff.mp ht), hdistinct, ?_, ?_⟩
  · intro ticket ht target htarget
    obtain ⟨parent, hp, hpid, hpk⟩ := hsound.node ticket (hperm.mem_iff.mp ht) target htarget
    exact ⟨parent, hperm.mem_iff.mpr hp, hpid, hpk⟩
  · have hsame : targetOf listing = targetOf tickets := by
      funext id
      cases h : tickets.find? (fun ticket => ticket.ref.id = id) with
      | none =>
        have hnone : listing.find? (fun ticket => ticket.ref.id = id) = none := by
          refine List.find?_eq_none.mpr fun ticket ht => ?_
          exact List.find?_eq_none.mp h ticket (hperm.mem_iff.mp ht)
        unfold targetOf
        rw [h, hnone]
      | some ticket =>
        have hid : ticket.ref.id = id := by simpa using List.find?_some h
        have ht : ticket ∈ tickets := List.mem_of_find?_eq_some h
        rw [← hid, targetOf_eq hsound.distinct ht, targetOf_eq hdistinct (hperm.mem_iff.mpr ht)]
    rw [hsame]
    exact hsound.forest

/-- Distinct ids: the entries are those of the tickets, in the order of the listing. -/
theorem entries_entriesOf : ∀ {tickets : List Ticket}, (tickets.map (·.ref.id)).Nodup →
    (entriesOf tickets).entries
      = tickets.map fun ticket => (⟨ticket.ref.id⟩, ⟨normalizeTicket ticket, []⟩) := by
  intro tickets
  induction tickets using List.reverseRecOn with
  | nil => exact fun _ => rfl
  | append_singleton tickets ticket ih =>
    intro hnodup
    rw [List.map_append, List.nodup_append] at hnodup
    obtain ⟨hold, -, hne⟩ := hnodup
    have hentries := ih hold
    have hfree : (⟨ticket.ref.id⟩ : MapKey String) ∉ (entriesOf tickets).keys := by
      unfold ObjectMap.keys
      rw [hentries, List.map_map]
      intro hmem
      obtain ⟨other, ho, hkey⟩ := List.mem_map.mp hmem
      refine hne other.ref.id (List.mem_map_of_mem ho) ticket.ref.id (by simp) ?_
      exact congrArg MapKey.key hkey
    have hstep : entriesOf (tickets ++ [ticket])
        = (entriesOf tickets).set ⟨ticket.ref.id⟩ ⟨normalizeTicket ticket, []⟩ := by
      unfold entriesOf
      rw [List.foldl_append, List.foldl_cons, List.foldl_nil]
    rw [hstep, entries_set_of_not_mem hfree rfl, hentries, List.map_append]
    rfl

section Chain

variable {entries : JsMap String TicketTreeEntry}

/-- The parent map of the entries. -/
def aboveIn (entries : JsMap String TicketTreeEntry) (id : String) : Option String :=
  (entries.get? ⟨id⟩).bind (·.ticket.target)

/-- Targets are node entries. -/
def TargetsNodes (entries : JsMap String TicketTreeEntry) : Prop :=
  ∀ id entry target, entries.get? ⟨id⟩ = some entry → entry.ticket.target = some target →
    ∃ parent, entries.get? ⟨target⟩ = some parent ∧ parent.ticket.kind = some .node

theorem checkChain_step {id target : String} {seen : List String} {parent : TicketTreeEntry}
    (hseen : target ∉ seen) (hparent : entries.get? ⟨target⟩ = some parent)
    (hnode : parent.ticket.kind = some .node) :
    checkChain entries id seen (some target)
      = checkChain entries id (target :: seen) parent.ticket.target := by
  rw [checkChain]
  simp only [hseen, dite_false]
  split
  · rename_i hnone
    rw [hparent] at hnone
    exact absurd hnone (Option.some_ne_none _)
  · rename_i found hfound
    rw [hparent] at hfound
    cases hfound
    simp [hnode]

/-- **The check passes** where targets are nodes and no way up returns. -/
theorem checkChain_ok (hforest : Forest (aboveIn entries)) (hnodes : TargetsNodes entries)
    (id : String) (target : String) : ∀ {seen : List String} {parent : TicketTreeEntry},
    entries.get? ⟨target⟩ = some parent → parent.ticket.kind = some .node →
    (∀ s ∈ seen, ¬ Relation.ReflTransGen (fun a b => aboveIn entries a = some b) target s) →
    checkChain entries id seen (some target) = .ok () := by
  induction target using hforest.induction with
  | _ target ih =>
    intro seen parent hparent hnode hclear
    have hseen : target ∉ seen := fun hmem => hclear target hmem .refl
    rw [checkChain_step hseen hparent hnode]
    cases hup : parent.ticket.target with
    | none => rw [checkChain]
    | some above =>
      have habove : aboveIn entries target = some above := by
        unfold aboveIn
        rw [hparent]
        exact hup
      obtain ⟨next, hnext, hnk⟩ := hnodes target parent above hparent hup
      refine ih above habove hnext hnk fun s hs => ?_
      rcases List.mem_cons.mp hs with rfl | hs
      · intro hback
        exact hforest.not_transGen s (Relation.TransGen.head' habove hback)
      · exact fun hway => hclear s hs (.head habove hway)

end Chain

/-! ## 2. Placing the tickets -/

/-- The ids of the tickets with a target. -/
def idsUnder (tickets : List Ticket) (target : Option String) : List String :=
  (tickets.filter fun ticket => ticket.target = target).map (·.ref.id)

theorem idsUnder_snoc (tickets : List Ticket) (ticket : Ticket) (target : Option String) :
    idsUnder (tickets ++ [ticket]) target
      = idsUnder tickets target ++ if ticket.target = target then [ticket.ref.id] else [] := by
  unfold idsUnder
  rw [List.filter_append, List.map_append]
  by_cases h : ticket.target = target <;> simp [h]

/-- The tree with some of the tickets placed. -/
structure Placed (entries : JsMap String TicketTreeEntry) (root : String) (done : List Ticket)
    (tree : TicketTree) : Prop where
  root : tree.root = root
  children : tree.children = idsUnder done none
  entry : ∀ id, tree.entries.get? ⟨id⟩
    = (entries.get? ⟨id⟩).map fun entry => ⟨entry.ticket, idsUnder done (some id)⟩

section Place

variable {entries : JsMap String TicketTreeEntry} {root : String} {done : List Ticket}
  {tree : TicketTree}

/-- Placing a ticket without a target, or under one that is there. -/
theorem Placed.place (h : Placed entries root done tree) {ticket : Ticket}
    (htarget : ∀ target, ticket.target = some target →
      target ≠ "" ∧ ∃ parent, entries.get? ⟨target⟩ = some parent) :
    Placed entries root (done ++ [ticket]) (tree.place ticket) := by
  unfold TicketTree.place
  cases ht : ticket.target with
  | none =>
    refine ⟨h.root, ?_, fun id => ?_⟩
    · show tree.children ++ [ticket.ref.id] = _
      rw [idsUnder_snoc, if_pos ht, h.children]
    · show tree.entries.get? ⟨id⟩ = _
      rw [h.entry, idsUnder_snoc, if_neg (by rw [ht]; exact (Option.some_ne_none _).symm),
        List.append_nil]
  | some target =>
    obtain ⟨hne, parent, hparent⟩ := htarget target ht
    have hat : tree.entries.get? ⟨target⟩
        = some ⟨parent.ticket, idsUnder done (some target)⟩ := by
      rw [h.entry, hparent]
      rfl
    dsimp only
    rw [if_neg hne]
    unfold TicketTree.pushUnder
    rw [hat]
    refine ⟨h.root, ?_, fun id => ?_⟩
    · show tree.children = _
      rw [idsUnder_snoc, if_neg (by rw [ht]; exact Option.some_ne_none _), List.append_nil,
        h.children]
    · show (tree.entries.set ⟨target⟩ _).get? ⟨id⟩ = _
      by_cases hid : id = target
      · subst hid
        rw [get?_set_self, hparent, idsUnder_snoc, if_pos ht]
        rfl
      · have hkey : (⟨id⟩ : MapKey String) ≠ ⟨target⟩ := fun he => hid (congrArg MapKey.key he)
        have hother : ¬ ticket.target = some id := by
          rw [ht]
          exact fun he => hid (Option.some.inj he).symm
        rw [get?_set_ne _ _ hkey, h.entry, idsUnder_snoc, if_neg hother, List.append_nil]

theorem Placed.targetsNodes (h : Placed entries root done tree) (hnodes : TargetsNodes entries) :
    TargetsNodes tree.entries := by
  intro id entry target hget htarget
  rw [h.entry, Option.map_eq_some_iff] at hget
  obtain ⟨before, hbefore, rfl⟩ := hget
  obtain ⟨parent, hparent, hkind⟩ := hnodes id before target hbefore htarget
  refine ⟨⟨parent.ticket, idsUnder done (some target)⟩, ?_, hkind⟩
  rw [h.entry, hparent]
  rfl

theorem Placed.aboveIn_eq (h : Placed entries root done tree) :
    aboveIn tree.entries = aboveIn entries := by
  funext id
  unfold aboveIn
  rw [h.entry]
  cases entries.get? ⟨id⟩ <;> rfl

/-- **The projection accepts**, and places ticket after ticket. -/
theorem Placed.foldlM (hforest : Forest (aboveIn entries)) (hnodes : TargetsNodes entries) :
    ∀ {rest done : List Ticket} {tree : TicketTree}, Placed entries root done tree →
      (∀ ticket ∈ rest, ∃ entry, entries.get? ⟨ticket.ref.id⟩ = some entry ∧
        entry.ticket.target = ticket.target) →
      (∀ ticket ∈ rest, ticket.target ≠ some "") →
      ∃ final, rest.foldlM TicketTree.placeEntry tree = .ok final ∧
        Placed entries root (done ++ rest) final
  | [], done, tree, h, _, _ => ⟨tree, rfl, by rwa [List.append_nil]⟩
  | ticket :: rest, done, tree, h, hin, hblank => by
    obtain ⟨entry, hentry, htarget⟩ := hin ticket List.mem_cons_self
    have hparent : ∀ target, ticket.target = some target →
        ∃ parent, entries.get? ⟨target⟩ = some parent ∧ parent.ticket.kind = some .node :=
      fun target ht => hnodes _ entry target hentry (htarget.trans ht)
    have hcheck : checkChain tree.entries ticket.ref.id [ticket.ref.id] ticket.target
        = .ok () := by
      cases ht : ticket.target with
      | none => rw [checkChain]
      | some target =>
        obtain ⟨parent, hp, hkind⟩ := hparent target ht
        have habove : aboveIn tree.entries ticket.ref.id = some target := by
          rw [h.aboveIn_eq]
          unfold aboveIn
          rw [hentry]
          exact htarget.trans ht
        have hforest' : Forest (aboveIn tree.entries) := by rwa [h.aboveIn_eq]
        have hup : tree.entries.get? ⟨target⟩
            = some ⟨parent.ticket, idsUnder done (some target)⟩ := by
          rw [h.entry, hp]
          rfl
        refine checkChain_ok hforest' (h.targetsNodes hnodes) _ target hup hkind
          fun s hs hback => ?_
        rw [List.mem_singleton.mp hs] at hback
        exact hforest'.not_transGen ticket.ref.id (Relation.TransGen.head' habove hback)
    have hplaced : Placed entries root (done ++ [ticket]) (tree.place ticket) := by
      refine h.place fun target ht => ⟨?_, ?_⟩
      · rintro rfl
        exact hblank ticket List.mem_cons_self ht
      · obtain ⟨parent, hp, -⟩ := hparent target ht
        exact ⟨parent, hp⟩
    obtain ⟨final, hfinal, hrest⟩ := Placed.foldlM hforest hnodes hplaced
      (fun t ht => hin t (List.mem_cons_of_mem _ ht))
      (fun t ht => hblank t (List.mem_cons_of_mem _ ht))
    refine ⟨final, ?_, by rwa [List.append_assoc] at hrest⟩
    rw [List.foldlM_cons]
    unfold TicketTree.placeEntry
    rw [hcheck]
    exact hfinal

end Place

/-! ## 3. Where a ticket is placed -/

/-- The places at which an id is listed: the root, or an entry. -/
def TicketTree.placesOf (tree : TicketTree) (id : String) : List (Option String) :=
  (tree.children.filter (· = id)).map (fun _ => none) ++
    tree.entries.entries.flatMap fun entry =>
      (entry.2.children.filter (· = id)).map fun _ => some entry.1.key

/-- The listing as a tree: an entry for every ticket, and every ticket in one place, its target
or the root. -/
structure TicketTree.Shows (tree : TicketTree) (root : String) (tickets : List Ticket) :
    Prop where
  root : tree.root = root
  entry : ∀ ticket ∈ tickets, ∃ entry, tree.entries.get? ⟨ticket.ref.id⟩ = some entry ∧
    entry.ticket = normalizeTicket ticket
  placed : ∀ ticket ∈ tickets, tree.placesOf ticket.ref.id = [ticket.target]
  nothingElse : ∀ id, (∀ ticket ∈ tickets, ticket.ref.id ≠ id) → tree.placesOf id = []

theorem filter_idsUnder {tickets : List Ticket} (hnodup : (tickets.map (·.ref.id)).Nodup)
    {ticket : Ticket} (ht : ticket ∈ tickets) (target : Option String) :
    (idsUnder tickets target).filter (· = ticket.ref.id)
      = if ticket.target = target then [ticket.ref.id] else [] := by
  have hsub : (idsUnder tickets target).Nodup :=
    hnodup.sublist (List.Sublist.map _ List.filter_sublist)
  have hmem : ticket.ref.id ∈ idsUnder tickets target ↔ ticket.target = target := by
    unfold idsUnder
    simp only [List.mem_map, List.mem_filter, decide_eq_true_eq]
    refine ⟨?_, fun h => ⟨ticket, ⟨ht, h⟩, rfl⟩⟩
    rintro ⟨other, ⟨ho, hot⟩, hid⟩
    rwa [eq_of_id_eq hnodup ho ht hid] at hot
  rw [List.filter_eq]
  by_cases h : ticket.target = target
  · rw [if_pos h, List.count_eq_one_of_mem hsub (hmem.mpr h)]
    rfl
  · rw [if_neg h, List.count_eq_zero.mpr fun hin => h (hmem.mp hin)]
    rfl

theorem notMem_idsUnder {tickets : List Ticket} {id : String}
    (h : ∀ ticket ∈ tickets, ticket.ref.id ≠ id) (target : Option String) :
    id ∉ idsUnder tickets target := by
  unfold idsUnder
  intro hmem
  obtain ⟨ticket, ht, hid⟩ := List.mem_map.mp hmem
  exact h ticket (List.mem_filter.mp ht).1 hid

/-- A list with one element that counts. -/
theorem flatMap_eq_singleton {α β γ : Type} (key : α → β) {f : α → List γ} {at_ : β} {out : γ} :
    ∀ {xs : List α}, (xs.map key).Nodup → at_ ∈ xs.map key →
      (∀ x ∈ xs, key x = at_ → f x = [out]) → (∀ x ∈ xs, key x ≠ at_ → f x = []) →
      xs.flatMap f = [out]
  | [], _, hmem, _, _ => absurd hmem List.not_mem_nil
  | x :: rest, hnodup, hmem, hat, hoff => by
    rw [List.flatMap_cons]
    rw [List.map_cons, List.nodup_cons] at hnodup
    rcases List.mem_cons.mp hmem with rfl | hmem
    · rw [hat x List.mem_cons_self rfl, List.flatMap_eq_nil_iff.mpr]
      · rfl
      · intro y hy
        refine hoff y (List.mem_cons_of_mem _ hy) fun he => hnodup.1 ?_
        rw [← he]
        exact List.mem_map_of_mem hy
    · have hne : key x ≠ at_ := fun he => hnodup.1 (by rwa [he])
      rw [hoff x List.mem_cons_self hne, List.nil_append]
      exact flatMap_eq_singleton key hnodup.2 hmem
        (fun y hy => hat y (List.mem_cons_of_mem _ hy))
        (fun y hy => hoff y (List.mem_cons_of_mem _ hy))

section PlacesOf

variable {entries : JsMap String TicketTreeEntry} {root : String} {done : List Ticket}
  {tree : TicketTree}

theorem Placed.children_eq (h : Placed entries root done tree)
    {entry : MapKey String × TicketTreeEntry} (hentry : entry ∈ tree.entries.entries) :
    entry.2.children = idsUnder done (some entry.1.key) := by
  have hget : tree.entries.get? ⟨entry.1.key⟩ = some entry.2 := get?_eq_some.mpr hentry
  rw [h.entry, Option.map_eq_some_iff] at hget
  obtain ⟨before, -, he⟩ := hget
  rw [← he]

/-- A placed ticket is in one place. -/
theorem Placed.placesOf_eq (h : Placed entries root done tree)
    (hnodup : (done.map (·.ref.id)).Nodup) {ticket : Ticket} (ht : ticket ∈ done)
    (htarget : ∀ target, ticket.target = some target →
      ∃ parent, entries.get? ⟨target⟩ = some parent) :
    tree.placesOf ticket.ref.id = [ticket.target] := by
  unfold TicketTree.placesOf
  rw [h.children, filter_idsUnder hnodup ht]
  cases htk : ticket.target with
  | none =>
    rw [if_pos rfl, List.flatMap_eq_nil_iff.mpr]
    · rfl
    · intro entry hentry
      rw [h.children_eq hentry, filter_idsUnder hnodup ht, htk,
        if_neg (Option.some_ne_none _).symm, List.map_nil]
  | some target =>
    obtain ⟨parent, hparent⟩ := htarget target htk
    have hkey : (⟨target⟩ : MapKey String) ∈ tree.entries.keys := by
      refine isSome_get?.mp ?_
      rw [h.entry, hparent]
      rfl
    rw [if_neg (Option.some_ne_none _), List.map_nil, List.nil_append]
    refine flatMap_eq_singleton Prod.fst tree.entries.nodup hkey ?_ ?_
    · intro entry hentry hat
      rw [h.children_eq hentry, filter_idsUnder hnodup ht, htk, hat, if_pos rfl]
      rfl
    · intro entry hentry hne
      have hother : ¬ some target = some entry.1.key := by
        intro he
        cases he
        exact hne rfl
      rw [h.children_eq hentry, filter_idsUnder hnodup ht, htk, if_neg hother, List.map_nil]

theorem Placed.placesOf_eq_nil (h : Placed entries root done tree) {id : String}
    (hid : ∀ ticket ∈ done, ticket.ref.id ≠ id) : tree.placesOf id = [] := by
  have hnone : ∀ target, (idsUnder done target).filter (· = id) = [] := by
    intro target
    refine List.filter_eq_nil_iff.mpr fun other ho he => notMem_idsUnder hid target ?_
    rwa [← of_decide_eq_true he]
  unfold TicketTree.placesOf
  rw [h.children, hnone, List.map_nil, List.nil_append, List.flatMap_eq_nil_iff]
  intro entry hentry
  rw [h.children_eq hentry, hnone, List.map_nil]

end PlacesOf

section Shows

variable {name : String} {tickets : List Ticket}

theorem get?_entriesOf (hnodup : (tickets.map (·.ref.id)).Nodup) {id : String}
    {entry : TicketTreeEntry} :
    (entriesOf tickets).get? ⟨id⟩ = some entry ↔
      ∃ ticket ∈ tickets, ticket.ref.id = id ∧ entry = ⟨normalizeTicket ticket, []⟩ := by
  rw [get?_eq_some, entries_entriesOf hnodup, List.mem_map]
  constructor
  · rintro ⟨ticket, ht, he⟩
    cases he
    exact ⟨ticket, ht, rfl, rfl⟩
  · rintro ⟨ticket, ht, rfl, rfl⟩
    exact ⟨ticket, ht, rfl⟩

theorem aboveIn_entriesOf (hnodup : (tickets.map (·.ref.id)).Nodup) :
    aboveIn (entriesOf tickets) = targetOf tickets := by
  funext id
  cases h : tickets.find? (fun ticket => ticket.ref.id = id) with
  | some ticket =>
    have hid : ticket.ref.id = id := by simpa using List.find?_some h
    have ht : ticket ∈ tickets := List.mem_of_find?_eq_some h
    rw [← hid, targetOf_eq hnodup ht]
    unfold aboveIn
    rw [(get?_entriesOf hnodup).mpr ⟨ticket, ht, rfl, rfl⟩]
    rfl
  | none =>
    have hnone : (entriesOf tickets).get? ⟨id⟩ = none := by
      cases hget : (entriesOf tickets).get? ⟨id⟩ with
      | none => rfl
      | some entry =>
        obtain ⟨ticket, ht, hid, -⟩ := (get?_entriesOf hnodup).mp hget
        exact absurd hid (by simpa using List.find?_eq_none.mp h ticket ht)
    unfold aboveIn targetOf
    rw [hnone, h]
    rfl

/-- **A sound listing is shown as a tree.** -/
theorem projectTicketTree_shows (hsound : TreeSound name tickets)
    (localeLe : String → String → Bool) (root : String) :
    ∃ tree, projectTicketTree localeLe tickets root = .ok tree ∧ tree.Shows root tickets := by
  have hnodup := hsound.distinct
  have hvalues : (entriesOf tickets).values.map (·.ticket) = tickets.map normalizeTicket := by
    unfold ObjectMap.values
    rw [entries_entriesOf hnodup, List.map_map, List.map_map]
    rfl
  set sorted := (tickets.map normalizeTicket).insertionSort
    (fun left right => localeLe left.ref.id right.ref.id = true) with hsorted
  have hperm : sorted.Perm (tickets.map normalizeTicket) := List.perm_insertionSort _ _
  have hids : (sorted.map (·.ref.id)).Nodup := by
    rw [(hperm.map _).nodup_iff, List.map_map]
    exact hnodup
  have hnodes : TargetsNodes (entriesOf tickets) := by
    intro id entry target hget htarget
    obtain ⟨ticket, ht, -, rfl⟩ := (get?_entriesOf hnodup).mp hget
    obtain ⟨parent, hp, hpid, hpk⟩ := hsound.node ticket ht target htarget
    refine ⟨⟨normalizeTicket parent, []⟩, (get?_entriesOf hnodup).mpr ⟨parent, hp, hpid, rfl⟩, ?_⟩
    show some (parent.kind.getD .work) = _
    rw [hpk]
    rfl
  have hof : ∀ ticket ∈ sorted, ∃ before ∈ tickets, ticket = normalizeTicket before := by
    intro ticket ht
    obtain ⟨before, hb, he⟩ := List.mem_map.mp (hperm.mem_iff.mp ht)
    exact ⟨before, hb, he.symm⟩
  have hstart : Placed (entriesOf tickets) root [] ⟨root, [], entriesOf tickets⟩ := by
    refine ⟨rfl, rfl, fun id => ?_⟩
    cases hget : (entriesOf tickets).get? ⟨id⟩ with
    | none => rfl
    | some entry =>
      obtain ⟨ticket, -, -, rfl⟩ := (get?_entriesOf hnodup).mp hget
      rfl
  have hforest : Forest (aboveIn (entriesOf tickets)) := by
    rw [aboveIn_entriesOf hnodup]
    exact hsound.forest
  have hin : ∀ ticket ∈ sorted, ∃ entry, (entriesOf tickets).get? ⟨ticket.ref.id⟩ = some entry ∧
      entry.ticket.target = ticket.target := by
    intro ticket ht
    obtain ⟨before, hb, rfl⟩ := hof ticket ht
    exact ⟨_, (get?_entriesOf hnodup).mpr ⟨before, hb, rfl, rfl⟩, rfl⟩
  have hnonblank : ∀ ticket ∈ sorted, ticket.target ≠ some "" := by
    intro ticket ht hblank
    obtain ⟨before, hb, rfl⟩ := hof ticket ht
    obtain ⟨parent, hp, hpid, -⟩ := hsound.node before hb "" hblank
    exact hsound.nonblank parent hp hpid
  obtain ⟨tree, htree, hplaced⟩ := Placed.foldlM hforest hnodes hstart hin hnonblank
  rw [List.nil_append] at hplaced
  refine ⟨tree, ?_, hplaced.root, ?_, ?_, ?_⟩
  · unfold projectTicketTree
    dsimp only
    rw [hvalues]
    exact htree
  · intro ticket ht
    refine ⟨⟨normalizeTicket ticket, idsUnder sorted (some ticket.ref.id)⟩, ?_, rfl⟩
    rw [hplaced.entry, (get?_entriesOf hnodup).mpr ⟨ticket, ht, rfl, rfl⟩]
    rfl
  · intro ticket ht
    have hin : normalizeTicket ticket ∈ sorted := hperm.mem_iff.mpr (List.mem_map_of_mem ht)
    have honce := hplaced.placesOf_eq hids hin fun target htk => by
      obtain ⟨parent, hp, hpid, -⟩ := hsound.node ticket ht target htk
      exact ⟨_, (get?_entriesOf hnodup).mpr ⟨parent, hp, hpid, rfl⟩⟩
    exact honce
  · intro id hid
    refine hplaced.placesOf_eq_nil fun ticket ht => ?_
    obtain ⟨before, hb, rfl⟩ := hof ticket ht
    exact hid before hb

end Shows

/-! ## 4. The integration tree -/

/-- A ticket targets another. -/
def Targets (tickets : List Ticket) (id target : String) : Prop :=
  ∃ ticket ∈ tickets, ticket.ref.id = id ∧ ticket.target = some target

theorem TreeSound.not_transGen {name : String} {tickets : List Ticket}
    (hsound : TreeSound name tickets) (id : String) :
    ¬ Relation.TransGen (Targets tickets) id id := by
  have hle : Targets tickets ≤ fun a b => targetOf tickets a = some b := by
    rintro a b ⟨ticket, ht, rfl, htarget⟩
    rw [targetOf_eq hsound.distinct ht, htarget]
  exact fun hcycle => hsound.forest.not_transGen id (Relation.TransGen.mono hle _ _ hcycle)

/-- **The integration tree stays a forest**: over any creates and updates that were each
accepted and applied before the next was validated, from no tickets on, every target is a node
ticket of the source, no ticket is above itself, and any order of the listing is projected to a
tree that has every ticket once, under its target or at the root. -/
theorem ticketTree_stays_forest {name : String} {tickets : List Ticket}
    (h : TreeWrites name [] tickets) (localeLe : String → String → Bool) :
    (∀ ticket ∈ tickets, ∀ target, ticket.target = some target →
      ∃ parent ∈ tickets, parent.ref.id = target ∧ parent.ref.source = ticket.ref.source ∧
        parent.kind = some .node) ∧
      (∀ id, ¬ Relation.TransGen (Targets tickets) id id) ∧
      ∀ listing, listing.Perm tickets → ∀ root, ∃ tree,
        projectTicketTree localeLe listing root = .ok tree ∧ tree.Shows root listing := by
  have hsound : TreeSound name tickets := (TreeSound.nil name).writes h
  refine ⟨?_, hsound.not_transGen, fun listing hperm root => ?_⟩
  · intro ticket ht target htarget
    obtain ⟨parent, hp, hpid, hpk⟩ := hsound.node ticket ht target htarget
    exact ⟨parent, hp, hpid, (hsound.source parent hp).trans (hsound.source ticket ht).symm, hpk⟩
  · exact projectTicketTree_shows (hsound.perm hperm) localeLe root

/-- The source of tests: a ticket is found by its id. -/
def fakeTicketSource (name : String) (tickets : List Ticket) : TreeSource where
  name := name
  get id := .ok (tickets.find? fun ticket => ticket.ref.id = id)
  listAll := some (.ok ⟨tickets, []⟩)

theorem fakeTicketSource_reads {tickets : List Ticket}
    (hdistinct : (tickets.map (·.ref.id)).Nodup) (name : String) :
    (fakeTicketSource name tickets).Reads tickets where
  found id ticket h _ := List.mem_of_find?_eq_some (Except.ok.inj h)
  canonical ticket ht found h := by
    rw [← Except.ok.inj h]
    exact find_eq_some hdistinct ht
  listed listing h _ ticket ht := by
    cases h
    exact ht

theorem ticketTree_stays_forest_nested :
    ∃ tickets, tickets.map (fun ticket => (ticket.ref.id, ticket.target))
        = [("fake-1", none), ("fake-2", some "fake-1")] ∧
      TreeWrites "fake" [] tickets ∧
      (∀ ticket ∈ tickets, ∀ target, ticket.target = some target →
        ∃ parent ∈ tickets, parent.ref.id = target ∧ parent.ref.source = ticket.ref.source ∧
          parent.kind = some .node) ∧
      (∀ id, ¬ Relation.TransGen (Targets tickets) id id) ∧
      ∀ listing, listing.Perm tickets → ∀ root, ∃ tree,
        projectTicketTree (fun _ _ => true) listing root = .ok tree ∧
          tree.Shows root listing := by
  let node : Ticket := createdTicket ⟨"fake", "fake-1", none, none⟩ ⟨some "node", none⟩ none
  let work : Ticket := createdTicket ⟨"fake", "fake-2", none, none⟩
    ⟨none, some (some "fake-1")⟩ (some (some "fake-1"))
  have hempty : (fakeTicketSource "fake" []).Reads [] :=
    fakeTicketSource_reads (by decide) _
  have hone : (fakeTicketSource "fake" [node]).Reads [node] :=
    fakeTicketSource_reads (by simp) _
  have hnode : validateTicketTree (fakeTicketSource "fake" []) 1 (some "fake-1")
      ⟨some "node", none⟩ = some (.ok none) := by decide +kernel
  have hwork : validateTicketTree (fakeTicketSource "fake" [node]) 1 (some "fake-2")
      ⟨none, some (some "fake-1")⟩ = some (.ok (some (some "fake-1"))) := by decide +kernel
  have hfirst : TreeWrite "fake" [] ([] ++ [node]) :=
    .create rfl hempty hnode rfl (by decide) (by simp)
  have hsecond : TreeWrite "fake" [node] ([node] ++ [work]) :=
    .create rfl hone hwork rfl (by decide) (by decide)
  have h : TreeWrites "fake" [] ([] ++ [node] ++ [work]) := .tail (.tail .refl hfirst) hsecond
  exact ⟨_, rfl, h, ticketTree_stays_forest h _⟩

/-- **The check of a draft or an update ends**, whatever it asks for and whatever was written
before. -/
theorem validation_ends {name : String} {tickets : List Ticket}
    (h : TreeWrites name [] tickets) {source : TreeSource} (hreads : source.Reads tickets)
    (id : Option String) (patch : TreePatch) :
    ∃ fuel, validateTicketTree source fuel id patch ≠ none :=
  validateTicketTree_ends hreads ((TreeSound.nil name).writes h) id patch

theorem validation_ends_node : ∃ node : Ticket, node.ref.id = "fake-1" ∧
    ∃ fuel, validateTicketTree (fakeTicketSource "fake" [node]) fuel (some "fake-2")
      ⟨none, some (some "fake-1")⟩ ≠ none := by
  let node : Ticket := createdTicket ⟨"fake", "fake-1", none, none⟩ ⟨some "node", none⟩ none
  have hempty : (fakeTicketSource "fake" []).Reads [] :=
    fakeTicketSource_reads (by decide) _
  have hnode : validateTicketTree (fakeTicketSource "fake" []) 1 (some "fake-1")
      ⟨some "node", none⟩ = some (.ok none) := by decide +kernel
  have hwrite : TreeWrite "fake" [] ([] ++ [node]) :=
    .create rfl hempty hnode rfl (by decide) (by simp)
  exact ⟨node, rfl, validation_ends (.single hwrite) (fakeTicketSource_reads (by simp) _) _ _⟩

end Autobuild
