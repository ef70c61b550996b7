/-
# The tree stays a forest

* `TreeSound`: every target is a node ticket of the same source, and every way up ends.
* `walkTargets_ok`: an accepted walk found the ticket of the target, and a way up that is clear
  of the ticket that is written.
* `TreeSound.write`: an accepted create or update keeps the tree sound.
-/
import Autobuild.Ports.TicketTree

namespace Autobuild

open ObjectMap ParentMap

/-! ## 1. Soundness -/

/-- The parent map of the tickets. -/
def targetOf (tickets : List Ticket) (id : String) : Option String :=
  (tickets.find? fun ticket => ticket.ref.id = id).bind (·.target)

structure TreeSound (name : String) (tickets : List Ticket) : Prop where
  source : ∀ ticket ∈ tickets, ticket.ref.source = name
  nonblank : ∀ ticket ∈ tickets, ticket.ref.id ≠ ""
  distinct : (tickets.map (·.ref.id)).Nodup
  node : ∀ ticket ∈ tickets, ∀ target, ticket.target = some target →
    ∃ parent ∈ tickets, parent.ref.id = target ∧ parent.kind = some .node
  forest : Forest (targetOf tickets)

theorem TreeSound.nil (name : String) : TreeSound name [] where
  source _ h := absurd h List.not_mem_nil
  nonblank _ h := absurd h List.not_mem_nil
  distinct := List.nodup_nil
  node _ h := absurd h List.not_mem_nil
  forest := Forest.of_eq_none fun _ => rfl

section Lookup

variable {tickets : List Ticket} (hdistinct : (tickets.map (·.ref.id)).Nodup)

include hdistinct

theorem eq_of_id_eq {ticket other : Ticket} (ht : ticket ∈ tickets) (ho : other ∈ tickets)
    (h : ticket.ref.id = other.ref.id) : ticket = other :=
  List.inj_on_of_nodup_map hdistinct ht ho h

theorem find_eq_some {ticket : Ticket} (ht : ticket ∈ tickets) :
    tickets.find? (fun other => other.ref.id = ticket.ref.id) = some ticket := by
  cases h : tickets.find? (fun other => other.ref.id = ticket.ref.id) with
  | none => simpa using List.find?_eq_none.mp h ticket ht
  | some other =>
    have hid : other.ref.id = ticket.ref.id := by simpa using List.find?_some h
    rw [eq_of_id_eq hdistinct (List.mem_of_find?_eq_some h) ht hid]

theorem targetOf_eq {ticket : Ticket} (ht : ticket ∈ tickets) :
    targetOf tickets ticket.ref.id = ticket.target := by
  unfold targetOf
  rw [find_eq_some hdistinct ht]
  rfl

end Lookup

/-! ## 2. What an accepted validation says -/

section Walk

variable {source : TreeSource} {name : String} {tickets : List Ticket}

/-- **An accepted walk** found a node ticket, and the way up from it ends, clear of every id that
was seen before and of every id that is free. -/
theorem walkTargets_ok (hname : source.name = name) (hreads : source.Reads tickets)
    (hsound : TreeSound name tickets) : ∀ {fuel : Nat} {seen : List String}
    {canonical : Option String} {next answer : String},
    source.walkTargets fuel seen canonical next = some (.ok answer) →
    ∃ node ∈ tickets, source.get next = .ok (some node) ∧ node.kind = some .node ∧
      answer = canonical.getD node.ref.id ∧
      ∀ clear, (ticketKey name clear ∈ seen ∨ ∀ ticket ∈ tickets, ticket.ref.id ≠ clear) →
        EndsClear (targetOf tickets) clear node.ref.id
  | 0, _, _, _, _, h => nomatch h
  | fuel + 1, seen, canonical, next, answer, h => by
    unfold TreeSource.walkTargets at h
    cases hget : source.get next with
    | error e => simp [hget] at h
    | ok found =>
      cases found with
      | none => simp [hget] at h
      | some node =>
        simp only [hget] at h
        by_cases hforeign : node.ref.source ≠ source.name
        · simp [hforeign] at h
        rw [if_neg hforeign] at h
        by_cases hkind : node.kind ≠ some .node
        · simp [hkind] at h
        rw [if_neg hkind] at h
        by_cases hseen : ticketKey node.ref.source node.ref.id ∈ seen
        · simp [hseen] at h
        rw [if_neg hseen] at h
        push Not at hforeign hkind
        have hnode : node ∈ tickets := hreads.found next node hget hforeign
        have hclear : ∀ clear, (ticketKey name clear ∈ seen ∨
            ∀ ticket ∈ tickets, ticket.ref.id ≠ clear) → node.ref.id ≠ clear := by
          rintro clear (hmem | hfree) rfl
          · exact hseen (by rwa [hforeign, hname])
          · exact hfree node hnode rfl
        have htarget : targetOf tickets node.ref.id = node.target :=
          targetOf_eq hsound.distinct hnode
        refine ⟨node, hnode, rfl, hkind, ?_⟩
        cases hup : node.target with
        | none =>
          simp only [hup, Option.some.injEq, Except.ok.injEq] at h
          exact ⟨h.symm, fun clear hc => .root (hclear clear hc) (htarget.trans hup)⟩
        | some target =>
          simp only [hup] at h
          obtain ⟨above, habove, hgot, -, hanswer, hends⟩ := walkTargets_ok hname hreads hsound h
          -- the stored target is a canonical id, so it is the ticket that was read
          obtain ⟨parent, hparent, hid, -⟩ := hsound.node node hnode target hup
          have hsame : some above = some parent :=
            hreads.canonical parent hparent _ (by rw [hid]; exact hgot)
          have hat : above.ref.id = target := by rw [Option.some.inj hsame, hid]
          refine ⟨hanswer, fun clear hc => .up (hclear clear hc) (htarget.trans hup) ?_⟩
          rw [← hat]
          exact hends clear (hc.imp (List.mem_cons_of_mem _) id)

theorem checkChildren_ok {current : Ticket} : ∀ {children : List Ticket},
    source.checkChildren current children = .ok () →
    ∀ child ∈ children, ∀ target, child.target = some target →
      ∃ found, source.get target = .ok found ∧
        ∀ parent, found = some parent →
          ¬ (parent.ref.id = current.ref.id ∧ parent.ref.source = current.ref.source)
  | [], _, _, h, _, _ => absurd h List.not_mem_nil
  | first :: rest, h, child, hchild, target, htarget => by
    unfold TreeSource.checkChildren at h
    rcases List.mem_cons.mp hchild with rfl | hrest
    · simp only [htarget] at h
      cases hget : source.get target with
      | error e => simp [hget] at h
      | ok found =>
        refine ⟨found, rfl, ?_⟩
        rintro parent rfl ⟨hid, hsource⟩
        simp [hget, hid, hsource] at h
    · have hchecked : source.checkChildren current rest = .ok () := ?_
      · exact checkChildren_ok hchecked child hrest target htarget
      cases hup : first.target with
      | none => simpa only [hup] using h
      | some up =>
        simp only [hup] at h
        cases hget : source.get up with
        | error e => simp [hget] at h
        | ok found =>
          simp only [hget] at h
          cases found with
          | none => exact h
          | some parent =>
            by_cases hsame : parent.ref.id = current.ref.id ∧
                parent.ref.source = current.ref.source
            · simp [hsame] at h
            · simpa only [if_neg hsame] using h

/-- **A node that was allowed to become work has no ticket under it.** -/
theorem checkPatch_demotes (hreads : source.Reads tickets) {ticket : Ticket} {patch : TreePatch}
    (ht : ticket ∈ tickets) (h : source.checkPatch (some ticket) patch = .ok ())
    (hwork : patch.kind = some "work") (hnode : ticket.kind = some .node) :
    ∀ child ∈ tickets, child.target ≠ some ticket.ref.id := by
  intro child hchild htarget
  unfold TreeSource.checkPatch TreeSource.checkDemotion at h
  simp only [hwork, hnode, and_self, if_true] at h
  cases hlist : source.listAll with
  | none => simp [hlist] at h
  | some listed =>
    cases listed with
    | error e => simp [hlist] at h
    | ok listing =>
      simp only [hlist] at h
      by_cases hdiag : listing.diagnostics ≠ []
      · simp [hdiag] at h
      rw [if_neg hdiag] at h
      push Not at hdiag
      obtain ⟨found, hget, hother⟩ := checkChildren_ok h child
        (hreads.listed listing hlist hdiag child hchild) _ htarget
      exact hother ticket (hreads.canonical ticket ht found hget) ⟨rfl, rfl⟩

/-- An accepted patch: its kind is one of the two, and its answer is that of a walk. -/
theorem validateTicketTree_ok {fuel : Nat} {id : Option String} {patch : TreePatch}
    {answer : Option (Option String)}
    (h : validateTicketTree source fuel id patch = some (.ok answer)) :
    (patch.kind = none ∨ patch.kind = some "work" ∨ patch.kind = some "node") ∧
      ∃ current, source.current id = .ok current ∧ source.checkPatch current patch = .ok () ∧
        (answer = none ∨ answer = some none ∨ ∃ target canonical,
          answer = some (some canonical) ∧
          source.walkTargets fuel (source.seenAtFirst id current) none target
            = some (.ok canonical)) := by
  unfold validateTicketTree at h
  by_cases hkind : patch.kind ≠ none ∧ patch.kind ≠ some "work" ∧ patch.kind ≠ some "node"
  · simp [hkind] at h
  rw [if_neg hkind] at h
  by_cases hblank : (patch.target.join.map JsText.isBlank).getD false = true
  · simp [hblank] at h
  rw [if_neg hblank] at h
  refine ⟨by tauto, ?_⟩
  cases hcurrent : source.current id with
  | error e => simp [hcurrent] at h
  | ok current =>
    simp only [hcurrent] at h
    cases hcheck : source.checkPatch current patch with
    | error e => simp [hcheck] at h
    | ok _ =>
      simp only [hcheck] at h
      refine ⟨current, rfl, hcheck, ?_⟩
      match htarget : patch.target with
      | none =>
        simp only [htarget, Option.some.injEq, Except.ok.injEq] at h
        exact .inl h.symm
      | some none =>
        simp only [htarget, Option.some.injEq, Except.ok.injEq] at h
        exact .inr (.inl h.symm)
      | some (some target) =>
        simp only [htarget, Option.map_eq_some_iff] at h
        obtain ⟨walked, hwalk, hanswer⟩ := h
        cases walked with
        | error e => cases hanswer
        | ok canonical =>
          refine .inr (.inr ⟨target, canonical, ?_, hwalk⟩)
          exact (Except.ok.inj hanswer).symm

/-- **The walk ends**: over a sound tree, with enough fuel it accepts or refuses. -/
theorem walkTargets_ends (hreads : source.Reads tickets)
    (hsound : TreeSound name tickets) (id : String) :
    ∀ {next : String} {node : Ticket}, source.get next = .ok (some node) → node.ref.id = id →
      ∃ fuel, ∀ seen canonical, source.walkTargets fuel seen canonical next ≠ none := by
  induction id using hsound.forest.induction with
  | _ id ih =>
    rintro next node hget rfl
    by_cases hforeign : node.ref.source = source.name
    · have hnode : node ∈ tickets := hreads.found next node hget hforeign
      cases hup : node.target with
      | none =>
        refine ⟨1, fun seen canonical => ?_⟩
        simp only [TreeSource.walkTargets, hget, hup]
        split_ifs <;> exact Option.some_ne_none _
      | some target =>
        have habove : targetOf tickets node.ref.id = some target := by
          rw [targetOf_eq hsound.distinct hnode, hup]
        obtain ⟨parent, hp, hpid, -⟩ := hsound.node node hnode target hup
        have hrest : ∃ fuel, ∀ seen canonical,
            source.walkTargets fuel seen canonical target ≠ none := by
          cases hgot : source.get target with
          | error e =>
            exact ⟨1, fun seen canonical => by simp [TreeSource.walkTargets, hgot]⟩
          | ok found =>
            have he := hreads.canonical parent hp found (by rw [hpid]; exact hgot)
            rw [he] at hgot
            exact ih target habove hgot hpid
        obtain ⟨fuel, hfuel⟩ := hrest
        refine ⟨fuel + 1, fun seen canonical => ?_⟩
        rw [TreeSource.walkTargets]
        simp only [hget, hup]
        split_ifs
        · exact Option.some_ne_none _
        · exact Option.some_ne_none _
        · exact Option.some_ne_none _
        · exact hfuel _ _
    · refine ⟨1, fun seen canonical => ?_⟩
      simp [TreeSource.walkTargets, hget, hforeign]

theorem validateTicketTree_ends (hreads : source.Reads tickets)
    (hsound : TreeSound name tickets) (id : Option String) (patch : TreePatch) :
    ∃ fuel, validateTicketTree source fuel id patch ≠ none := by
  have hwalk : ∀ target, ∃ fuel, ∀ seen canonical,
      source.walkTargets fuel seen canonical target ≠ none := by
    intro target
    cases hget : source.get target with
    | error e => exact ⟨1, fun seen canonical => by simp [TreeSource.walkTargets, hget]⟩
    | ok found =>
      cases found with
      | none => exact ⟨1, fun seen canonical => by simp [TreeSource.walkTargets, hget]⟩
      | some node => exact walkTargets_ends hreads hsound _ hget rfl
  obtain ⟨fuel, hfuel⟩ := hwalk (patch.target.join.getD "")
  refine ⟨fuel, ?_⟩
  unfold validateTicketTree
  split_ifs
  · exact Option.some_ne_none _
  · exact Option.some_ne_none _
  · cases source.current id with
    | error e => exact Option.some_ne_none _
    | ok current =>
      dsimp only
      cases source.checkPatch current patch with
      | error e => exact Option.some_ne_none _
      | ok _ =>
        match htarget : patch.target with
        | none => exact Option.some_ne_none _
        | some none => exact Option.some_ne_none _
        | some (some target) =>
          rw [htarget] at hfuel
          exact fun hnone => hfuel _ _ (Option.map_eq_none_iff.mp hnone)

end Walk

/-! ## 3. What an applied write does -/

/-- A ticket that is no longer a node was demoted. -/
theorem Ticket.patched_kind {ticket : Ticket} {patch : TreePatch}
    (answer : Option (Option String))
    (hkind : patch.kind = none ∨ patch.kind = some "work" ∨ patch.kind = some "node")
    (hnode : ticket.kind = some .node) :
    (ticket.patched patch answer).kind = some .node ∨ patch.kind = some "work" := by
  unfold Ticket.patched
  rcases hkind with h | h | h
  · exact .inl (by rw [h]; exact hnode)
  · exact .inr h
  · exact .inl (by rw [h]; rfl)

theorem targetOf_append {tickets : List Ticket} (ticket : Ticket)
    (hfree : ∀ other ∈ tickets, other.ref.id ≠ ticket.ref.id) :
    targetOf (tickets ++ [ticket]) ticket.ref.id = ticket.target ∧
      ∀ id, id ≠ ticket.ref.id → targetOf (tickets ++ [ticket]) id = targetOf tickets id := by
  unfold targetOf
  refine ⟨?_, fun id hid => ?_⟩
  · rw [List.find?_append, List.find?_eq_none.mpr fun other ho => by simpa using hfree other ho]
    simp
  · rw [List.find?_append]
    simp [Ne.symm hid]

theorem targetOf_map {tickets : List Ticket} {f : Ticket → Ticket}
    (href : ∀ ticket, (f ticket).ref = ticket.ref) (id : String) :
    targetOf (tickets.map f) id
      = (tickets.find? fun ticket => ticket.ref.id = id).bind fun ticket => (f ticket).target := by
  unfold targetOf
  rw [List.find?_map, Option.bind_map]
  simp only [Function.comp_def, href]

namespace TreeSound

variable {name : String} {tickets : List Ticket}

/-- **A create keeps the tree sound**: nothing targets the free id. -/
theorem create (hsound : TreeSound name tickets) {source : TreeSource} {fuel : Nat}
    {requested : Option String} {draft : TreePatch} {answer : Option (Option String)}
    {ref : TicketRef} (hname : source.name = name) (hreads : source.Reads tickets)
    (haccepted : validateTicketTree source fuel requested draft = some (.ok answer))
    (hsource : ref.source = name) (hid : ref.id ≠ "")
    (hfree : ∀ ticket ∈ tickets, ticket.ref.id ≠ ref.id) :
    TreeSound name (tickets ++ [createdTicket ref draft answer]) := by
  obtain ⟨-, current, -, -, hanswer⟩ := validateTicketTree_ok haccepted
  -- the target of the new ticket is a node, and the way up from it is clear of the new id
  have htarget : ∀ target, (createdTicket ref draft answer).target = some target →
      ∃ node ∈ tickets, node.ref.id = target ∧ node.kind = some .node ∧
        EndsClear (targetOf tickets) ref.id target := by
    intro target ht
    rcases hanswer with rfl | rfl | ⟨next, canonical, rfl, hwalk⟩
    · cases ht
    · cases ht
    · obtain ⟨node, hnode, -, hkind, hcanonical, hends⟩ :=
        walkTargets_ok hname hreads hsound hwalk
      have he : canonical = target := by injection ht
      rw [← he, hcanonical]
      exact ⟨node, hnode, rfl, hkind, hends _ (.inr hfree)⟩
  obtain ⟨hself, hoff⟩ := targetOf_append (createdTicket ref draft answer) hfree
  refine ⟨?_, ?_, ?_, ?_, ?_⟩
  · intro ticket ht
    rcases List.mem_append.mp ht with ht | ht
    · exact hsound.source ticket ht
    · rw [List.mem_singleton.mp ht]
      exact hsource
  · intro ticket ht
    rcases List.mem_append.mp ht with ht | ht
    · exact hsound.nonblank ticket ht
    · rw [List.mem_singleton.mp ht]
      exact hid
  · rw [List.map_append, List.nodup_append]
    refine ⟨hsound.distinct, List.nodup_singleton _, ?_⟩
    rintro id hmem id' hmem' rfl
    obtain ⟨ticket, ht, rfl⟩ := List.mem_map.mp hmem
    exact hfree ticket ht (List.mem_singleton.mp hmem')
  · intro ticket ht target htk
    rcases List.mem_append.mp ht with ht | ht
    · obtain ⟨parent, hp, hpid, hpk⟩ := hsound.node ticket ht target htk
      exact ⟨parent, List.mem_append_left _ hp, hpid, hpk⟩
    · rw [List.mem_singleton.mp ht] at htk
      obtain ⟨node, hn, hnid, hnk, -⟩ := htarget target htk
      exact ⟨node, List.mem_append_left _ hn, hnid, hnk⟩
  · refine hsound.forest.change ref.id hoff fun above habove => ?_
    obtain ⟨-, -, -, -, hends⟩ := htarget above (hself.symm.trans habove)
    exact hends

/-- What an update of a ticket makes of each ticket. -/
def patchAt (ticket : Ticket) (patch : TreePatch) (answer : Option (Option String))
    (other : Ticket) : Ticket :=
  if other.ref.id = ticket.ref.id then other.patched patch answer else other

section PatchAt

variable {ticket : Ticket} {patch : TreePatch} {answer : Option (Option String)}

theorem patchAt_ref (other : Ticket) : (patchAt ticket patch answer other).ref = other.ref := by
  unfold patchAt
  split <;> rfl

theorem patchAt_self : patchAt ticket patch answer ticket = ticket.patched patch answer :=
  if_pos rfl

theorem patchAt_of_ne {other : Ticket} (h : other.ref.id ≠ ticket.ref.id) :
    patchAt ticket patch answer other = other :=
  if_neg h

theorem targetOf_patchAt_of_ne {id : String} (h : id ≠ ticket.ref.id) :
    targetOf (tickets.map (patchAt ticket patch answer)) id = targetOf tickets id := by
  rw [targetOf_map patchAt_ref]
  unfold targetOf
  cases hfind : tickets.find? (fun t => t.ref.id = id) with
  | none => rfl
  | some found =>
    have hid : found.ref.id = id := by simpa using List.find?_some hfind
    show (patchAt ticket patch answer found).target = found.target
    rw [patchAt_of_ne (by rw [hid]; exact h)]

theorem targetOf_patchAt_self (hsound : TreeSound name tickets) (hticket : ticket ∈ tickets) :
    targetOf (tickets.map (patchAt ticket patch answer)) ticket.ref.id
      = answer.getD ticket.target := by
  rw [targetOf_map patchAt_ref, find_eq_some hsound.distinct hticket]
  show (patchAt ticket patch answer ticket).target = _
  rw [patchAt_self]
  rfl

end PatchAt

section Update

variable {source : TreeSource} {fuel : Nat} {id : String} {patch : TreePatch}
  {answer : Option (Option String)} {ticket : Ticket}

/-- An accepted target is a node, and the way up from it is clear of the ticket. -/
theorem accepted_target_clear (hsound : TreeSound name tickets) (hname : source.name = name)
    (hreads : source.Reads tickets)
    (haccepted : validateTicketTree source fuel (some id) patch = some (.ok answer))
    (hticket : ticket ∈ tickets) (hget : source.get id = .ok (some ticket)) {target : String}
    (htarget : answer = some (some target)) :
    ∃ node ∈ tickets, node.ref.id = target ∧ node.kind = some .node ∧
      EndsClear (targetOf tickets) ticket.ref.id target := by
  obtain ⟨-, current, hcurrent, -, hanswer⟩ := validateTicketTree_ok haccepted
  have hc : current = some ticket := by
    have he : source.get id = .ok current := hcurrent
    rw [hget] at he
    exact (Except.ok.inj he).symm
  subst hc
  have hkey : ticketKey name ticket.ref.id ∈ source.seenAtFirst (some id) (some ticket) := by
    rw [← hsound.source ticket hticket]
    exact List.mem_singleton_self _
  rcases hanswer with rfl | rfl | ⟨next, canonical, rfl, hwalk⟩
  · cases htarget
  · cases htarget
  · obtain ⟨node, hnode, -, hnk, hcanonical, hends⟩ := walkTargets_ok hname hreads hsound hwalk
    have he : canonical = target := by injection htarget with ht; injection ht
    rw [← he, hcanonical]
    exact ⟨node, hnode, rfl, hnk, hends _ (.inl hkey)⟩

/-- What is above a ticket after an update was there before as a node, and if it is the updated
ticket it has a ticket under it. -/
theorem parent_of_patchAt (hsound : TreeSound name tickets) (hticket : ticket ∈ tickets)
    (hmoved : ∀ target, answer = some (some target) →
      ∃ node ∈ tickets, node.ref.id = target ∧ node.kind = some .node ∧
        EndsClear (targetOf tickets) ticket.ref.id target)
    {before : Ticket} (hbefore : before ∈ tickets) {target : String}
    (htarget : (patchAt ticket patch answer before).target = some target) :
    ∃ parent ∈ tickets, parent.ref.id = target ∧ parent.kind = some .node ∧
      (parent = ticket → ∃ child ∈ tickets, child.target = some ticket.ref.id) := by
  by_cases hsame : before.ref.id = ticket.ref.id
  · have hbt : before = ticket := eq_of_id_eq hsound.distinct hbefore hticket hsame
    subst hbt
    rw [patchAt_self] at htarget
    cases ha : answer with
    | none =>
      have hold : before.target = some target := by
        rw [← htarget]
        unfold Ticket.patched
        rw [ha]
        rfl
      obtain ⟨parent, hp, hpid, hpk⟩ := hsound.node before hbefore target hold
      refine ⟨parent, hp, hpid, hpk, ?_⟩
      rintro rfl
      exact ⟨parent, hp, by rw [hpid, hold]⟩
    | some target? =>
      have hnew : answer = some (some target) := by
        rw [ha, ← htarget]
        unfold Ticket.patched
        rw [ha]
        rfl
      obtain ⟨node, hn, hnid, hnk, hends⟩ := hmoved target hnew
      refine ⟨node, hn, hnid, hnk, ?_⟩
      rintro rfl
      exact absurd hnid.symm (hends.ne)
  · rw [patchAt_of_ne hsame] at htarget
    obtain ⟨parent, hp, hpid, hpk⟩ := hsound.node before hbefore target htarget
    refine ⟨parent, hp, hpid, hpk, ?_⟩
    rintro rfl
    exact ⟨before, hbefore, by rw [hpid, htarget]⟩

/-- An update moves one ticket, under a target whose way up is clear of it. -/
theorem forest_patchAt (hsound : TreeSound name tickets) (hticket : ticket ∈ tickets)
    (hmoved : ∀ target, answer = some (some target) →
      EndsClear (targetOf tickets) ticket.ref.id target) :
    Forest (targetOf (tickets.map (patchAt ticket patch answer))) := by
  cases ha : answer with
  | none =>
    have hsame : targetOf (tickets.map (patchAt ticket patch none)) = targetOf tickets := by
      funext other
      by_cases hne : other = ticket.ref.id
      · rw [hne, targetOf_patchAt_self hsound hticket, targetOf_eq hsound.distinct hticket]
        rfl
      · exact targetOf_patchAt_of_ne hne
    rw [hsame]
    exact hsound.forest
  | some target? =>
    refine hsound.forest.change ticket.ref.id (fun other hne => targetOf_patchAt_of_ne hne)
      fun above habove => ?_
    rw [targetOf_patchAt_self hsound hticket] at habove
    exact hmoved above (by rw [ha]; exact congrArg some habove)

/-- **An update keeps the tree sound**: no way up from the new target meets the ticket, and a
ticket that stops being a node has none under it. -/
theorem update (hsound : TreeSound name tickets)
    (hname : source.name = name) (hreads : source.Reads tickets)
    (haccepted : validateTicketTree source fuel (some id) patch = some (.ok answer))
    (hticket : ticket ∈ tickets) (hget : source.get id = .ok (some ticket)) :
    TreeSound name (tickets.map (patchAt ticket patch answer)) := by
  obtain ⟨hkind, current, hcurrent, hcheck, -⟩ := validateTicketTree_ok haccepted
  have hc : current = some ticket := by
    have he : source.get id = .ok current := hcurrent
    rw [hget] at he
    exact (Except.ok.inj he).symm
  subst hc
  have hmoved : ∀ target, answer = some (some target) →
      ∃ node ∈ tickets, node.ref.id = target ∧ node.kind = some .node ∧
        EndsClear (targetOf tickets) ticket.ref.id target :=
    fun _ => accepted_target_clear hsound hname hreads haccepted hticket hget
  refine ⟨?_, ?_, ?_, ?_, forest_patchAt hsound hticket fun target ht => ?_⟩
  · intro other ho
    obtain ⟨before, hb, rfl⟩ := List.mem_map.mp ho
    rw [patchAt_ref]
    exact hsound.source before hb
  · intro other ho
    obtain ⟨before, hb, rfl⟩ := List.mem_map.mp ho
    rw [patchAt_ref]
    exact hsound.nonblank before hb
  · have hids : (tickets.map (patchAt ticket patch answer)).map (·.ref.id)
        = tickets.map (·.ref.id) := by
      rw [List.map_map]
      exact List.map_congr_left fun other _ => by rw [Function.comp_apply, patchAt_ref]
    rw [hids]
    exact hsound.distinct
  · intro other ho target htk
    obtain ⟨before, hb, rfl⟩ := List.mem_map.mp ho
    -- the target was there before, or it is the walked one
    obtain ⟨parent, hp, hpid, hpk, hchild⟩ := parent_of_patchAt hsound hticket hmoved hb htk
    refine ⟨patchAt ticket patch answer parent, List.mem_map_of_mem hp,
      by rw [patchAt_ref, hpid], ?_⟩
    by_cases hsame : parent.ref.id = ticket.ref.id
    · have hpt : parent = ticket := eq_of_id_eq hsound.distinct hp hticket hsame
      subst hpt
      rw [patchAt_self]
      rcases Ticket.patched_kind answer hkind hpk with hk | hwork
      · exact hk
      · obtain ⟨child, hc, hct⟩ := hchild rfl
        exact absurd hct (checkPatch_demotes hreads hp hcheck hwork hpk child hc)
    · rw [patchAt_of_ne hsame]
      exact hpk
  · obtain ⟨-, -, -, -, hends⟩ := hmoved target ht
    exact hends

end Update

/-- **Every accepted write keeps the tree sound.** -/
theorem write {tickets' : List Ticket} (hsound : TreeSound name tickets)
    (h : TreeWrite name tickets tickets') : TreeSound name tickets' := by
  cases h with
  | create hname hreads haccepted hsource hid hfree =>
    exact hsound.create hname hreads haccepted hsource hid hfree
  | update hname hreads haccepted hticket hget =>
    exact hsound.update hname hreads haccepted hticket hget

theorem writes {tickets' : List Ticket} (hsound : TreeSound name tickets)
    (h : TreeWrites name tickets tickets') : TreeSound name tickets' := by
  induction h with
  | refl => exact hsound
  | tail _ hwrite ih => exact ih.write hwrite

end TreeSound

end Autobuild
