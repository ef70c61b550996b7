/-
# The invariant of the node restack ledger

One specification lemma for each event with a check says what its acceptance means; from
these, `Ledger` is kept by every event and so holds after every log the reducer accepts.

The contribution base is the second half.  Most events leave it alone, `node.opened` sets it
once, and settlement of a completed restack moves it to the reserved parent.  By the ledger,
the rewrite such a settlement needs is a receipt for the head the intent named.
-/
import Autobuild.Kernel.NodeRestackState

namespace Autobuild
namespace NodeRestackState

/-! ## 1. The invariant -/

/-- The base of item `i`: the active parent, then the head of the item before. -/
def baseAt (parent : String) (items : List NodeItemReplayed) : Nat → Option String
  | 0 => some parent
  | i + 1 => (items[i]?).map (·.head)

/-- The replayed items are the first changes of the reservation, each on the one before. -/
structure Chain (active : NodeWriterReserved) (items : List NodeItemReplayed) : Prop where
  length_le : items.length ≤ active.changes.length
  linked : ∀ i item, items[i]? = some item →
    item.index = i ∧ baseAt active.parent items i = some item.base

/-- What the record is between events. -/
structure Ledger (s : NodeRestackState) : Prop where
  chain : ∀ active, s.active = some active → Chain active s.items
  prepared : ∀ p, s.prepared = some p → ∃ active, s.active = some active ∧
    p.index = s.items.length ∧ p.index < active.changes.length ∧
      p.base = chainHead active.parent s.items
  intent : ∀ t, s.intent = some t → ∃ active, s.active = some active ∧
    s.items.length = active.changes.length ∧ t.head = chainHead active.parent s.items
  rewritten : ∀ w, s.rewritten = some w → ∃ t, s.intent = some t ∧ w.head = t.head
  idle : s.active = none → s.prepared = none ∧ s.conflict = none ∧ s.intent = none ∧
    s.rewritten = none ∧ s.items = []

theorem ledger_empty : Ledger {} where
  chain := fun _ h => nomatch h
  prepared := fun _ h => nomatch h
  intent := fun _ h => nomatch h
  rewritten := fun _ h => nomatch h
  idle := fun _ => ⟨rfl, rfl, rfl, rfl, rfl⟩

/-- The invariant reads only what is in flight. -/
theorem Ledger.frame {s s' : NodeRestackState} (h : Ledger s) (ha : s'.active = s.active)
    (hi : s'.items = s.items) (hp : s'.prepared = s.prepared) (hc : s'.conflict = s.conflict)
    (ht : s'.intent = s.intent) (hw : s'.rewritten = s.rewritten) : Ledger s' where
  chain := by rw [ha, hi]; exact h.chain
  prepared := by rw [ha, hi, hp]; exact h.prepared
  intent := by rw [ha, hi, ht]; exact h.intent
  rewritten := by rw [hw, ht]; exact h.rewritten
  idle := by rw [ha, hi, hp, hc, ht, hw]; exact h.idle

theorem chainHead_append (parent : String) (items : List NodeItemReplayed)
    (item : NodeItemReplayed) : chainHead parent (items ++ [item]) = item.head := by
  simp [chainHead]

/-- The head of the chain is the base the next item needs. -/
theorem baseAt_length (parent : String) (items : List NodeItemReplayed) :
    baseAt parent items items.length = some (chainHead parent items) := by
  rcases List.eq_nil_or_concat items with rfl | ⟨init, last, rfl⟩
  · rfl
  · rw [List.concat_eq_append, chainHead_append, List.length_append]
    simp [baseAt]

theorem baseAt_append (parent : String) (items more : List NodeItemReplayed) {i : Nat}
    (h : i ≤ items.length) : baseAt parent (items ++ more) i = baseAt parent items i := by
  cases i with
  | zero => rfl
  | succ i => rw [baseAt, baseAt, List.getElem?_append_left (by omega)]

/-- One more item on the head of the chain. -/
theorem Chain.append {active : NodeWriterReserved} {items : List NodeItemReplayed}
    (h : Chain active items) {item : NodeItemReplayed} (hi : item.index = items.length)
    (hlt : item.index < active.changes.length)
    (hb : item.base = chainHead active.parent items) : Chain active (items ++ [item]) where
  length_le := by rw [List.length_append, List.length_singleton]; omega
  linked := by
    intro i x hx
    rcases Nat.lt_or_ge i items.length with hlt' | hge
    · rw [List.getElem?_append_left hlt'] at hx
      rw [baseAt_append _ _ _ (Nat.le_of_lt hlt')]
      exact h.linked i x hx
    · have hlen := (List.getElem?_eq_some_iff.mp hx).1
      rw [List.length_append, List.length_singleton] at hlen
      have hie : i = items.length := by omega
      subst hie
      rw [List.getElem?_append_right (Nat.le_refl _), Nat.sub_self,
        List.getElem?_cons_zero, Option.some.injEq] at hx
      subst hx
      rw [baseAt_append _ _ _ (Nat.le_refl _), baseAt_length, hb]
      exact ⟨hi, rfl⟩

/-! ## 2. What acceptance means -/

section
variable {s s' : NodeRestackState}

theorem reserveWriter_ok {seq : Nat} {r : NodeWriterReserved}
    (h : s.reserveWriter seq r = .ok s') :
    s.active = none ∧ s' = { s.setBoundary r.expected r.oldBase with
      reservedSeq := some seq, active := some r, items := [] } := by
  unfold reserveWriter at h
  split at h
  · cases h
  · rename_i hn
    rw [Bool.not_eq_true, Option.isSome_eq_false_iff, Option.isNone_iff_eq_none] at hn
    exact ⟨hn, (Except.ok.inj h).symm⟩

theorem prepareItem_ok {p : NodeItemPrepared} (h : s.prepareItem p = .ok s') :
    ∃ active, s.active = some active ∧ p.index = s.items.length ∧
      p.index < active.changes.length ∧ p.base = chainHead active.parent s.items ∧
      s' = { s with prepared := some p } := by
  unfold prepareItem at h
  split at h
  · cases h
  · rename_i active ha
    split at h
    · cases h
    · split at h
      · cases h
      · split at h
        · cases h
        · rename_i h1 h2 h3
          rw [not_or, not_not, not_not] at h1
          exact ⟨active, ha, h1.2, by omega, by simpa using h3, (Except.ok.inj h).symm⟩

theorem conflictItem_ok {c : NodeItemConflicted} (h : s.conflictItem c = .ok s') :
    s.prepared ≠ none ∧ s' = { s with conflict := some c } := by
  unfold conflictItem at h
  split at h
  · cases h
  · rename_i p hp
    split at h
    · cases h
    · exact ⟨by rw [hp]; exact Option.some_ne_none p, (Except.ok.inj h).symm⟩

/-- A receipt is late and ignored, or it is for the prepared item. -/
theorem replayItem_ok {r : NodeItemReplayed} (h : s.replayItem r = .ok s') :
    s' = s ∨ ∃ active p, s.active = some active ∧ s.prepared = some p ∧
      r.index = p.index ∧ r.base = p.base ∧
      s' = { s with items := s.items ++ [r], prepared := none, conflict := none } := by
  unfold replayItem at h
  split at h
  · exact Or.inl (Except.ok.inj h).symm
  · rename_i active ha
    split at h
    · exact Or.inl (Except.ok.inj h).symm
    · split at h
      · cases h
      · rename_i p hp
        split at h
        · cases h
        · split at h
          · cases h
          · rename_i h1 _
            rw [not_or, not_or, not_not, not_not, not_not] at h1
            exact Or.inr ⟨active, p, ha, hp, h1.2.1, h1.2.2, (Except.ok.inj h).symm⟩

theorem intendPublish_ok {t : NodePublishIntended} (h : s.intendPublish t = .ok s') :
    ∃ active, s.active = some active ∧ s.items.length = active.changes.length ∧
      t.head = chainHead active.parent s.items ∧ s' = { s with intent := some t } := by
  unfold intendPublish at h
  split at h
  · cases h
  · rename_i active ha
    split at h
    · cases h
    · split at h
      · cases h
      · rename_i h1 h2
        rw [not_or, not_or, not_not, not_not] at h1
        exact ⟨active, ha, h1.2.2, by simpa using h2, (Except.ok.inj h).symm⟩

/-- A rewrite receipt is for the intended head; what else it writes is not in flight. -/
theorem confirmRewrite_ok {w : NodeRewritten} (h : s.confirmRewrite w = .ok s') :
    ∃ t, s.intent = some t ∧ w.head = t.head ∧ s'.active = s.active ∧ s'.items = s.items ∧
      s'.prepared = s.prepared ∧ s'.conflict = s.conflict ∧ s'.intent = s.intent ∧
      s'.rewritten = some w ∧ s'.contributionBase = s.contributionBase := by
  unfold confirmRewrite at h
  split at h
  · rename_i t active ht ha
    split at h
    · cases h
    · rename_i h1
      rw [not_or, not_or, not_not, not_not, not_not] at h1
      refine ⟨t, ht, h1.2.1, ?_⟩
      rw [← Except.ok.inj h]
      cases active.operation <;> exact ⟨rfl, rfl, rfl, rfl, rfl, rfl, rfl⟩
  · cases h

/-- Settlement clears the flight; a completed restack, with its rewrite, moves the base. -/
theorem settleWriter_ok {x : NodeWriterSettled} (h : s.settleWriter x = .ok s') :
    ∃ active, s.active = some active ∧ x.id = active.id ∧
      ((x.outcome = .completed ∧ s.rewritten ≠ none ∧ active.operation = .restack ∧
          s' = (s.completeRestack active).clearReservation) ∨
        s' = s.clearReservation) := by
  unfold settleWriter at h
  split at h
  · cases h
  · rename_i active ha
    split at h
    · cases h
    · rename_i hid
      refine ⟨active, ha, by simpa using hid, ?_⟩
      split at h
      · rename_i ho
        split at h
        · cases h
        · rename_i hr
          split at h
          · rename_i hop
            refine Or.inl ⟨ho, ?_, hop, (Except.ok.inj h).symm⟩
            simpa using hr
          · exact Or.inr (Except.ok.inj h).symm
      · exact Or.inr (Except.ok.inj h).symm

end

theorem ledger_clearReservation (s : NodeRestackState) : Ledger s.clearReservation where
  chain := fun _ h => nomatch h
  prepared := fun _ h => nomatch h
  intent := fun _ h => nomatch h
  rewritten := fun _ h => nomatch h
  idle := fun _ => ⟨rfl, rfl, rfl, rfl, rfl⟩

/-! ## 3. Each event keeps the invariant -/

section
variable {s s' : NodeRestackState}

theorem reserveWriter_ledger (hl : Ledger s) {seq : Nat} {r : NodeWriterReserved}
    (h : s.reserveWriter seq r = .ok s') : Ledger s' := by
  obtain ⟨ha, rfl⟩ := reserveWriter_ok h
  obtain ⟨hp, hc, ht, hw, -⟩ := hl.idle ha
  constructor
  · rintro active -
    exact ⟨Nat.zero_le _, fun i item hx => by simp at hx⟩
  · intro p hp'
    exact absurd (hp.symm.trans hp') (Option.some_ne_none p).symm
  · intro t ht'
    exact absurd (ht.symm.trans ht') (Option.some_ne_none t).symm
  · intro w hw'
    exact absurd (hw.symm.trans hw') (Option.some_ne_none w).symm
  · intro hn
    exact absurd hn (Option.some_ne_none r)

theorem prepareItem_ledger (hl : Ledger s) {p : NodeItemPrepared}
    (h : s.prepareItem p = .ok s') : Ledger s' := by
  obtain ⟨active, ha, hi, hlt, hb, rfl⟩ := prepareItem_ok h
  refine ⟨hl.chain, ?_, hl.intent, hl.rewritten, ?_⟩
  · intro p' hp'
    obtain rfl := Option.some.inj hp'
    exact ⟨active, ha, hi, hlt, hb⟩
  · intro hn
    exact absurd (ha.symm.trans hn) (Option.some_ne_none active)

theorem conflictItem_ledger (hl : Ledger s) {c : NodeItemConflicted}
    (h : s.conflictItem c = .ok s') : Ledger s' := by
  obtain ⟨hp, rfl⟩ := conflictItem_ok h
  exact ⟨hl.chain, hl.prepared, hl.intent, hl.rewritten, fun hn => absurd (hl.idle hn).1 hp⟩

/-- While an item is prepared the chain is short of the changes, so nothing is intended. -/
theorem Ledger.intent_eq_none (hl : Ledger s) {p : NodeItemPrepared}
    (hp : s.prepared = some p) : s.intent = none := by
  obtain ⟨active, ha, hi, hlt, -⟩ := hl.prepared p hp
  cases ht : s.intent with
  | none => rfl
  | some t =>
    obtain ⟨active', ha', hlen, -⟩ := hl.intent t ht
    obtain rfl : active = active' := Option.some.inj (ha.symm.trans ha')
    omega

theorem replayItem_ledger (hl : Ledger s) {r : NodeItemReplayed}
    (h : s.replayItem r = .ok s') : Ledger s' := by
  rcases replayItem_ok h with rfl | ⟨active, p, ha, hp, hi, hb, rfl⟩
  · exact hl
  · obtain ⟨active', ha', hpi, hlt, hpb⟩ := hl.prepared p hp
    obtain rfl : active = active' := Option.some.inj (ha.symm.trans ha')
    have ht : s.intent = none := hl.intent_eq_none hp
    constructor
    · intro active' ha'
      obtain rfl : active = active' := Option.some.inj (ha.symm.trans ha')
      exact (hl.chain active ha).append (hi.trans hpi) (hi ▸ hlt) (hb.trans hpb)
    · intro p' hp'
      exact nomatch hp'
    · intro t ht'
      exact absurd (ht.symm.trans ht') (Option.some_ne_none t).symm
    · intro w hw
      obtain ⟨t, ht', -⟩ := hl.rewritten w hw
      exact absurd (ht.symm.trans ht') (Option.some_ne_none t).symm
    · intro hn
      exact absurd (ha.symm.trans hn) (Option.some_ne_none active)

theorem intendPublish_ledger (hl : Ledger s) {t : NodePublishIntended}
    (h : s.intendPublish t = .ok s') : Ledger s' := by
  obtain ⟨active, ha, hlen, hh, rfl⟩ := intendPublish_ok h
  refine ⟨hl.chain, hl.prepared, ?_, ?_, ?_⟩
  · intro t' ht'
    obtain rfl := Option.some.inj ht'
    exact ⟨active, ha, hlen, hh⟩
  · -- a repeated intent names the same head, which an earlier receipt confirmed
    intro w hw
    obtain ⟨t0, ht0, hwt⟩ := hl.rewritten w hw
    obtain ⟨active', ha', -, hh'⟩ := hl.intent t0 ht0
    obtain rfl : active = active' := Option.some.inj (ha.symm.trans ha')
    exact ⟨t, rfl, hwt.trans (hh'.trans hh.symm)⟩
  · intro hn
    exact absurd (ha.symm.trans hn) (Option.some_ne_none active)

theorem confirmRewrite_ledger (hl : Ledger s) {w : NodeRewritten}
    (h : s.confirmRewrite w = .ok s') : Ledger s' := by
  obtain ⟨t, ht, hh, ha, hi, hp, hc, ht', hw, -⟩ := confirmRewrite_ok h
  constructor
  · rw [ha, hi]; exact hl.chain
  · rw [ha, hi, hp]; exact hl.prepared
  · rw [ha, hi, ht']; exact hl.intent
  · intro w' hw'
    obtain rfl : w = w' := Option.some.inj (hw.symm.trans hw')
    exact ⟨t, ht'.trans ht, hh⟩
  · intro hn
    obtain ⟨active, hactive, -⟩ := hl.intent t ht
    exact absurd (hactive.symm.trans (ha.symm.trans hn)) (Option.some_ne_none active)

theorem settleWriter_ledger {x : NodeWriterSettled} (h : s.settleWriter x = .ok s') :
    Ledger s' := by
  obtain ⟨active, -, -, ⟨-, -, -, rfl⟩ | rfl⟩ := settleWriter_ok h
  · exact ledger_clearReservation _
  · exact ledger_clearReservation _

theorem noteInventory_ledger (hl : Ledger s) (v : NodeInventory) : Ledger (s.noteInventory v) := by
  unfold noteInventory
  cases s.contributionBase <;> exact hl.frame rfl rfl rfl rfl rfl rfl

/-- **The step.** -/
theorem advanceNodeRestackEvent_ledger (hl : Ledger s) {seq : Nat} {body : EventBody}
    (h : advanceNodeRestackEvent s seq body = .ok s') : Ledger s' := by
  unfold advanceNodeRestackEvent at h
  split at h
  case h_16 => exact reserveWriter_ledger hl h
  case h_17 => exact prepareItem_ledger hl h
  case h_18 => exact conflictItem_ledger hl h
  case h_19 => exact replayItem_ledger hl h
  case h_20 => exact intendPublish_ledger hl h
  case h_21 => exact confirmRewrite_ledger hl h
  case h_22 => exact settleWriter_ledger h
  case h_24 v => rw [← Except.ok.inj h]; exact noteInventory_ledger hl v
  all_goals
    rw [← Except.ok.inj h]
    exact hl.frame rfl rfl rfl rfl rfl rfl

/-- What a base that is set can become. -/
def BaseMoves (s : NodeRestackState) (body : EventBody) (s' : NodeRestackState) : Prop :=
  ∃ x active w t, body = .node (.writerSettled x) ∧ x.outcome = .completed ∧
    s.active = some active ∧ x.id = active.id ∧ active.operation = .restack ∧
    s.rewritten = some w ∧ s.intent = some t ∧ w.head = t.head ∧
    s'.contributionBase = some active.parent

theorem contributionBase_step (hl : Ledger s) {seq : Nat} {body : EventBody} {base : String}
    (h : advanceNodeRestackEvent s seq body = .ok s') (hb : s.contributionBase = some base) :
    s'.contributionBase = some base ∨ BaseMoves s body s' := by
  unfold advanceNodeRestackEvent at h
  split at h
  case h_15 =>
    rw [← Except.ok.inj h]
    simp [openNode, hb]
  case h_16 =>
    obtain ⟨-, rfl⟩ := reserveWriter_ok h
    exact Or.inl hb
  case h_17 =>
    obtain ⟨-, -, -, -, -, rfl⟩ := prepareItem_ok h
    exact Or.inl hb
  case h_18 =>
    obtain ⟨-, rfl⟩ := conflictItem_ok h
    exact Or.inl hb
  case h_19 =>
    rcases replayItem_ok h with rfl | ⟨-, -, -, -, -, -, rfl⟩ <;> exact Or.inl hb
  case h_20 =>
    obtain ⟨-, -, -, -, rfl⟩ := intendPublish_ok h
    exact Or.inl hb
  case h_21 =>
    obtain ⟨-, -, -, -, -, -, -, -, -, hc⟩ := confirmRewrite_ok h
    exact Or.inl (hc.trans hb)
  case h_22 x =>
    obtain ⟨active, ha, hid, ⟨ho, hr, hop, rfl⟩ | rfl⟩ := settleWriter_ok h
    · obtain ⟨w, hw⟩ := Option.ne_none_iff_exists'.mp hr
      obtain ⟨t, ht, hwt⟩ := hl.rewritten w hw
      exact Or.inr ⟨x, active, w, t, rfl, ho, ha, hid, hop, hw, ht, hwt, rfl⟩
    · exact Or.inl hb
  case h_24 v =>
    rw [← Except.ok.inj h]
    simp only [noteInventory, hb]
    exact Or.inl hb
  all_goals
    rw [← Except.ok.inj h]
    exact Or.inl hb

end

/-! ## 4. Every accepted log -/

/-- The invariant after every log accepted from a state that has it. -/
theorem advanceNodeRestack_ledger {s' : NodeRestackState} :
    ∀ {events : List AbEvent} {s : NodeRestackState}, Ledger s →
      advanceNodeRestack s events = .ok s' → Ledger s'
  | [], _, hl, h => by
    rw [← Except.ok.inj h]
    exact hl
  | event :: events, s, hl, h => by
    obtain ⟨m, hm, hrest⟩ := Checked.bind_eq_ok.mp h
    exact advanceNodeRestack_ledger (advanceNodeRestackEvent_ledger hl hm) hrest

/-- **The node restack ledger.**  After every accepted log the record is well formed, and at
every event of it a contribution base that was set stays, unless the event is the completed
settlement of a restack with a confirmed rewrite of its intended head. -/
theorem nodeRestack_ledger {events : List AbEvent} {s : NodeRestackState}
    (h : advanceNodeRestack {} events = .ok s) :
    Ledger s ∧ ∀ before event after m m' base, events = before ++ event :: after →
      advanceNodeRestack {} before = .ok m →
      advanceNodeRestackEvent m event.seq event.body = .ok m' →
      m.contributionBase = some base →
      m'.contributionBase = some base ∨ BaseMoves m event.body m' :=
  ⟨advanceNodeRestack_ledger ledger_empty h,
    fun _ _ _ _ _ _ _ hm hm' hb =>
      contributionBase_step (advanceNodeRestack_ledger ledger_empty hm) hm' hb⟩

/-- A node opened at `b1` and restacked onto `p2`, its one change replayed as `c2`. -/
def restackLog : List AbEvent :=
  [ ⟨1, 0, .dispatcher, .node (.opened "b1")⟩,
    ⟨2, 0, .kernel, .node (.writerReserved
      { id := "r", operation := .restack, requests := none, expected := "h1", parent := "p2",
        oldBase := "b1", source := none, archive := "refs/a", changes := [⟨"c1", none, false⟩],
        upstreamBuilds := [], merges := [] })⟩,
    ⟨3, 0, .kernel, .node (.itemPrepared ⟨"r", 0, "p2"⟩)⟩,
    ⟨4, 0, .kernel, .node (.itemReplayed ⟨"r", 0, "p2", "c2", false, none⟩)⟩,
    ⟨5, 0, .kernel, .node (.publishIntended ⟨"r", "c2"⟩)⟩,
    ⟨6, 0, .kernel, .node (.rewritten ⟨"r", "h1", "c2"⟩)⟩,
    ⟨7, 0, .kernel, .node (.writerSettled ⟨"r", .completed, none⟩)⟩ ]

/-- The restack of `restackLog` is accepted and moves the base to the reserved parent. -/
theorem nodeRestack_ledger_restackLog :
    ∃ s, advanceNodeRestack {} restackLog = .ok s ∧ Ledger s ∧
      s.contributionBase = some "p2" := by
  obtain ⟨s, hs, hb⟩ : ∃ s, advanceNodeRestack {} restackLog = .ok s ∧
      s.contributionBase = some "p2" := ⟨_, rfl, rfl⟩
  exact ⟨s, hs, (nodeRestack_ledger hs).1, hb⟩

end NodeRestackState
end Autobuild
