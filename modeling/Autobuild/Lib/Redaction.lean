/-
# Redaction in a stream

A text is redacted by writing a marker over every occurrence of a secret.  If no secret overlaps
the marker, what is left of the text is as it was: an occurrence in the redacted text was one
before (`isInfix_of_replaceAll`).

In a stream the text comes in pieces, and what might begin a secret is held back.

* `Apart`: a secret and the marker have no common part that could join them.
* `Redacts`: what a redaction does, for any number of secrets.
* `Safe`: what was released and what is held contain no secret, and no secret may begin before
  what is held.
* `Safe.step`: releasing all of a redacted text but a suffix that covers every beginning of a
  secret keeps that.
-/
import Mathlib.Data.List.Infix

namespace Autobuild.Redaction

universe u

variable {α : Type u}

/-- No occurrence of the secret shares an element with one of the marker. -/
structure Apart (marker secret : List α) : Prop where
  suffix : ∀ part, part ≠ [] → part <:+ secret → ¬ part <+: marker
  prefixed : ∀ part, part ≠ [] → part <+: secret → ¬ part <:+ marker
  inside : ¬ secret <:+: marker
  around : ¬ marker <:+: secret

theorem Apart.ne_nil {marker secret : List α} (h : Apart marker secret) : secret ≠ [] :=
  fun hnil => h.inside (hnil ▸ List.nil_infix)

/-- A secret without the marker's letters. -/
theorem Apart.of_disjoint {marker secret : List α} (hmarker : marker ≠ []) (hsecret : secret ≠ [])
    (h : ∀ c ∈ secret, c ∉ marker) : Apart marker secret where
  suffix part hpart hs hm :=
    let ⟨c, hc⟩ := List.exists_mem_of_ne_nil part hpart
    h c (hs.mem hc) (hm.mem hc)
  prefixed part hpart hs hm :=
    let ⟨c, hc⟩ := List.exists_mem_of_ne_nil part hpart
    h c (hs.mem hc) (hm.mem hc)
  inside hm :=
    let ⟨c, hc⟩ := List.exists_mem_of_ne_nil secret hsecret
    h c hc (hm.mem hc)
  around hs :=
    let ⟨c, hc⟩ := List.exists_mem_of_ne_nil marker hmarker
    h c (hs.mem hc) hc

theorem suffix_append_iff (back : List α) {xs ys : List α} :
    xs ++ back <:+ ys ++ back ↔ xs <:+ ys :=
  exists_congr fun front => by rw [← List.append_assoc, List.append_left_inj]

/-! ## 1. One secret -/

section
variable [DecidableEq α]

/-- The marker over the occurrences of `needle`, from the left; `skip` elements of one are still
to pass. -/
def replaceFrom (marker needle : List α) : ℕ → List α → List α
  | _, [] => []
  | skip + 1, _ :: rest => replaceFrom marker needle skip rest
  | 0, c :: rest =>
    if needle <+: c :: rest then marker ++ replaceFrom marker needle (needle.length - 1) rest
    else c :: replaceFrom marker needle 0 rest

/-- `text.split(needle).join(marker)`. -/
def replaceAll (marker needle text : List α) : List α := replaceFrom marker needle 0 text

variable {marker needle secret : List α}

/-- Where the redacted text begins with an end of a secret, the text does. -/
theorem isPrefix_of_replaceFrom (h : Apart marker secret) {part text : List α}
    (hpart : part <:+ secret) (hout : part <+: replaceFrom marker needle 0 text) :
    part <+: text := by
  induction text generalizing part with
  | nil => exact hout
  | cons c rest ih =>
    cases part with
    | nil => exact List.nil_prefix
    | cons d part =>
      rw [replaceFrom] at hout
      split at hout
      · obtain hle | hle := List.prefix_or_prefix_of_prefix hout (List.prefix_append marker _)
        · exact absurd hle (h.suffix _ (List.cons_ne_nil d part) hpart)
        · exact absurd (hle.isInfix.trans hpart.isInfix) h.around
      · obtain ⟨rfl, hrest⟩ := List.cons_prefix_cons.mp hout
        exact List.cons_prefix_cons.mpr
          ⟨rfl, ih ((List.suffix_cons d part).trans hpart) hrest⟩

omit [DecidableEq α] in
/-- A secret that occurs behind the marker occurs behind it without it. -/
theorem Apart.isInfix_append (h : Apart marker secret) {text : List α}
    (hout : secret <:+: marker ++ text) : secret <:+: text := by
  obtain hin | hin | ⟨front, back, hsplit, hfront, hback⟩ := List.infix_append_iff.mp hout
  · exact absurd hin h.inside
  · exact hin
  · cases front with
    | nil =>
      rw [hsplit]
      exact hback.isInfix
    | cons c front =>
      exact absurd hfront (h.prefixed _ (List.cons_ne_nil c front)
        (hsplit ▸ List.prefix_append _ _))

/-- An occurrence of a secret in the redacted text was there before. -/
theorem isInfix_of_replaceFrom (h : Apart marker secret) {skip : ℕ} {text : List α}
    (hout : secret <:+: replaceFrom marker needle skip text) : secret <:+: text := by
  induction text generalizing skip with
  | nil => exact hout
  | cons c rest ih =>
    cases skip with
    | succ skip => exact List.infix_cons (ih hout)
    | zero =>
      rw [replaceFrom] at hout
      split at hout
      · exact List.infix_cons (ih (h.isInfix_append hout))
      · rename_i hneedle
        obtain hbegin | hlater := List.infix_cons_iff.mp hout
        · have hnow : secret <+: replaceFrom marker needle 0 (c :: rest) := by
            rw [replaceFrom, if_neg hneedle]
            exact hbegin
          exact (isPrefix_of_replaceFrom h List.suffix_rfl hnow).isInfix
        · exact List.infix_cons (ih hlater)

/-- **No occurrence is left.** -/
theorem not_isInfix_replaceFrom (h : Apart marker needle) (skip : ℕ) (text : List α) :
    ¬ needle <:+: replaceFrom marker needle skip text := by
  induction text generalizing skip with
  | nil => exact fun hout => h.ne_nil (List.infix_nil.mp hout)
  | cons c rest ih =>
    intro hout
    cases skip with
    | succ skip => exact ih skip hout
    | zero =>
      rw [replaceFrom] at hout
      split at hout
      · exact ih _ (h.isInfix_append hout)
      · rename_i hneedle
        obtain hbegin | hlater := List.infix_cons_iff.mp hout
        · have hnow : needle <+: replaceFrom marker needle 0 (c :: rest) := by
            rw [replaceFrom, if_neg hneedle]
            exact hbegin
          exact hneedle (isPrefix_of_replaceFrom h List.suffix_rfl hnow)
        · exact ih 0 hlater

theorem replaceAll_of_not_isInfix {text : List α} (h : ¬ needle <:+: text) :
    replaceAll marker needle text = text := by
  unfold replaceAll
  induction text with
  | nil => rfl
  | cons c rest ih =>
    rw [replaceFrom, if_neg fun hbegin => h hbegin.isInfix,
      ih fun hlater => h (List.infix_cons hlater)]

/-- Up to the first marker the redacted text is a prefix of the text. -/
theorem replaceAll_kept (marker needle text : List α) :
    replaceAll marker needle text = text ∨
      ∃ kept after, replaceAll marker needle text = kept ++ (marker ++ after) ∧ kept <+: text := by
  unfold replaceAll
  induction text with
  | nil => exact .inl rfl
  | cons c rest ih =>
    rw [replaceFrom]
    split
    · exact .inr ⟨[], _, rfl, List.nil_prefix⟩
    · obtain hsame | ⟨kept, after, hout, hkept⟩ := ih
      · exact .inl (by rw [hsame])
      · exact .inr ⟨c :: kept, after, by rw [hout]; rfl, List.cons_prefix_cons.mpr ⟨rfl, hkept⟩⟩

/-- A marker is not redacted. -/
theorem replaceFrom_marker (h : Apart marker needle) {part : List α} (hpart : part <:+ marker)
    (text : List α) :
    replaceFrom marker needle 0 (part ++ text) = part ++ replaceFrom marker needle 0 text := by
  induction part with
  | nil => rfl
  | cons c part ih =>
    have hbegin : ¬ needle <+: c :: (part ++ text) := by
      intro hbegin
      obtain hle | hle := List.prefix_or_prefix_of_prefix hbegin
        (List.prefix_append (c :: part) text)
      · exact h.inside (hle.isInfix.trans hpart.isInfix)
      · exact h.prefixed _ (List.cons_ne_nil c part) hle hpart
    rw [List.cons_append, replaceFrom, if_neg hbegin,
      ih ((List.suffix_cons c part).trans hpart), List.cons_append]

theorem replaceAll_marked (h : Apart marker needle) (kept after : List α) :
    ∃ kept' after', replaceAll marker needle (kept ++ (marker ++ after)) =
      kept' ++ (marker ++ after') ∧ kept' <+: kept := by
  unfold replaceAll
  induction kept with
  | nil =>
    refine ⟨[], replaceFrom marker needle 0 after, ?_, List.nil_prefix⟩
    exact replaceFrom_marker h List.suffix_rfl after
  | cons c kept ih =>
    rw [List.cons_append, replaceFrom]
    split
    · exact ⟨[], _, rfl, List.nil_prefix⟩
    · obtain ⟨kept', after', hout, hkept⟩ := ih
      exact ⟨c :: kept', after', by rw [hout]; rfl, List.cons_prefix_cons.mpr ⟨rfl, hkept⟩⟩

end

/-! ## 2. All secrets -/

/-- `out` is the text redacted of the secrets. -/
structure Redacts (marker : List α) (secrets : List (List α)) (text out : List α) : Prop where
  clean : ∀ secret ∈ secrets, ¬ secret <:+: out
  kept : out = text ∨ ∃ kept after, out = kept ++ (marker ++ after) ∧ kept <+: text

/-- One secret after the other. -/
def redact [DecidableEq α] (marker : List α) (secrets : List (List α)) (text : List α) : List α :=
  secrets.foldl (fun text secret => replaceAll marker secret text) text

section
variable [DecidableEq α] {marker : List α}

theorem redact_kept {text : List α} : ∀ {secrets : List (List α)} {out : List α},
    (∀ secret ∈ secrets, Apart marker secret) →
    (out = text ∨ ∃ kept after, out = kept ++ (marker ++ after) ∧ kept <+: text) →
    redact marker secrets out = text ∨
      ∃ kept after, redact marker secrets out = kept ++ (marker ++ after) ∧ kept <+: text
  | [], _, _, h => h
  | secret :: secrets, out, hapart, h => by
    obtain ⟨hsecret, hrest⟩ := List.forall_mem_cons.mp hapart
    refine @redact_kept text secrets _ hrest ?_
    obtain rfl | ⟨kept, after, rfl, hkept⟩ := h
    · exact replaceAll_kept marker secret out
    · obtain ⟨kept', after', hout, hkept'⟩ := replaceAll_marked hsecret kept after
      exact .inr ⟨kept', after', hout, hkept'.trans hkept⟩

/-- An occurrence in the redacted text was there before. -/
theorem isInfix_of_redact {secret : List α} (h : Apart marker secret) :
    ∀ {secrets : List (List α)} {text : List α},
      secret <:+: redact marker secrets text → secret <:+: text
  | [], _, hout => hout
  | _ :: secrets, _, hout => isInfix_of_replaceFrom h (@isInfix_of_redact _ h secrets _ hout)

theorem redact_clean : ∀ {secrets : List (List α)} {text : List α},
    (∀ secret ∈ secrets, Apart marker secret) →
      ∀ secret ∈ secrets, ¬ secret <:+: redact marker secrets text
  | first :: secrets, text, hapart, secret, hsecret, hout => by
    obtain ⟨hfirst, hrest⟩ := List.forall_mem_cons.mp hapart
    obtain rfl | hsecret := List.mem_cons.mp hsecret
    · exact not_isInfix_replaceFrom hfirst 0 text
        (@isInfix_of_redact α _ marker _ hfirst secrets _ hout)
    · exact redact_clean hrest secret hsecret hout

theorem redacts {secrets : List (List α)} (hapart : ∀ secret ∈ secrets, Apart marker secret)
    (text : List α) : Redacts marker secrets text (redact marker secrets text) :=
  ⟨redact_clean hapart, redact_kept hapart (.inl rfl)⟩

theorem redact_of_clean {secrets : List (List α)} {text : List α}
    (h : ∀ secret ∈ secrets, ¬ secret <:+: text) : redact marker secrets text = text := by
  induction secrets with
  | nil => rfl
  | cons secret secrets ih =>
    obtain ⟨hsecret, hrest⟩ := List.forall_mem_cons.mp h
    rw [redact, List.foldl_cons, replaceAll_of_not_isInfix hsecret]
    exact ih hrest

end

/-! ## 3. The stream -/

/-- What was released, and what is held. -/
structure Safe (secrets : List (List α)) (out held : List α) : Prop where
  clean : ∀ secret ∈ secrets, ¬ secret <:+: out ++ held
  /-- A secret that may still come begins in what is held. -/
  begun : ∀ secret ∈ secrets, ∀ part, part <+: secret → part ≠ secret → part <:+ out ++ held →
    part.length ≤ held.length

theorem Safe.nil {secrets : List (List α)} (h : ∀ secret ∈ secrets, secret ≠ []) :
    Safe secrets [] [] :=
  ⟨fun secret hsecret hout => h secret hsecret (List.infix_nil.mp hout),
    fun _ _ _ _ _ hpart => (List.suffix_nil.mp hpart) ▸ le_rfl⟩

/-- Where the redacted text begins with an end of a secret, the text does. -/
theorem Redacts.isPrefix {marker : List α} {secrets : List (List α)} {text out : List α}
    (h : Redacts marker secrets text out) {secret part : List α} (hapart : Apart marker secret)
    (hpart : part <:+ secret) (hout : part <+: out) : part <+: text := by
  obtain rfl | ⟨kept, after, rfl, hkept⟩ := h.kept
  · exact hout
  · obtain hle | ⟨more, rfl⟩ := List.prefix_or_prefix_of_prefix hout (List.prefix_append kept _)
    · exact hle.trans hkept
    · have hmore : more <+: marker ++ after := (List.prefix_append_right_inj kept).mp hout
      have hend : more <:+ secret := (List.suffix_append kept more).trans hpart
      cases more with
      | nil => rwa [List.append_nil]
      | cons c more =>
        obtain hle | hle := List.prefix_or_prefix_of_prefix hmore (List.prefix_append marker after)
        · exact absurd hle (hapart.suffix _ (List.cons_ne_nil c more) hend)
        · exact absurd (hle.isInfix.trans hend.isInfix) hapart.around

section
variable {marker : List α} {secrets : List (List α)} {out held delta text : List α}

/-- A beginning of a secret that covers what is held begins there. -/
theorem Safe.eq_nil (h : Safe secrets out held) {secret front back : List α}
    (hsecret : secret ∈ secrets) (hbegin : front ++ held ++ back <+: secret)
    (hfront : front <:+ out) (hproper : front ++ held ≠ secret) : front = [] := by
  have hlength := h.begun secret hsecret (front ++ held)
    ((List.prefix_append _ back).trans hbegin) hproper
    ((suffix_append_iff held).mpr hfront)
  rw [List.length_append] at hlength
  exact List.eq_nil_of_length_eq_zero (by omega)

/-- The redacted text goes on with no secret that began before it. -/
theorem Safe.append (h : Safe secrets out held)
    (hredacts : Redacts marker secrets (held ++ delta) text)
    (hapart : ∀ secret ∈ secrets, Apart marker secret) :
    ∀ secret ∈ secrets, ¬ secret <:+: out ++ text := by
  intro secret hsecret hin
  obtain hin | hin | ⟨front, back, rfl, hfront, hback⟩ := List.infix_append_iff.mp hin
  · exact h.clean secret hsecret (hin.trans (List.prefix_append out held).isInfix)
  · exact hredacts.clean secret hsecret hin
  · have hsource : back <+: held ++ delta :=
      hredacts.isPrefix (hapart _ hsecret) (List.suffix_append front back) hback
    obtain hle | ⟨more, rfl⟩ := List.prefix_or_prefix_of_prefix hsource
      (List.prefix_append held delta)
    · refine h.clean _ hsecret ?_
      obtain ⟨before, rfl⟩ := hfront
      obtain ⟨after, rfl⟩ := hle
      exact ⟨before, after, by simp⟩
    · by_cases hproper : front ++ held = front ++ (held ++ more)
      · refine h.clean _ hsecret ?_
        rw [← hproper]
        exact ((suffix_append_iff held).mpr hfront).isInfix
      · have hnil : front = [] := h.eq_nil hsecret
          (show front ++ held ++ more <+: _ by rw [List.append_assoc]) hfront hproper
        subst hnil
        exact hredacts.clean _ hsecret hback.isInfix

/-- A beginning of a secret at the end of the redacted text is within it. -/
theorem Safe.length_le (h : Safe secrets out held)
    (hredacts : Redacts marker secrets (held ++ delta) text)
    {secret part : List α} (hsecret : secret ∈ secrets) (hapart : Apart marker secret)
    (hpart : part <+: secret) (hne : part ≠ secret) (hsuffix : part <:+ out ++ text) :
    part.length ≤ text.length := by
  by_contra hlong
  obtain ⟨front, rfl⟩ : text <:+ part :=
    List.suffix_of_suffix_length_le (List.suffix_append out text) hsuffix (by omega)
  obtain rfl | ⟨kept, after, rfl, -⟩ := hredacts.kept
  · have hfront : front <:+ out := (suffix_append_iff _).mp hsuffix
    have hproper : front ++ held ≠ secret := by
      rintro rfl
      have hle := hpart.length_le
      refine hne (hpart.eq_of_length_le ?_)
      simp only [List.length_append]
      omega
    have hnil : front = [] := h.eq_nil hsecret
      (show front ++ held ++ delta <+: _ by rwa [List.append_assoc]) hfront hproper
    rw [hnil] at hlong
    exact hlong le_rfl
  · refine hapart.around (List.IsInfix.trans ?_ hpart.isInfix)
    exact ⟨front ++ kept, after, by simp⟩

/-- **The step of a stream**: of the redacted text all is released but an end of it that covers
every beginning of a secret at its end. -/
theorem Safe.step {released held' : List α} (h : Safe secrets out held)
    (hredacts : Redacts marker secrets (held ++ delta) (released ++ held'))
    (hapart : ∀ secret ∈ secrets, Apart marker secret)
    (hheld : ∀ secret ∈ secrets, ∀ part, part <+: secret → part ≠ secret →
      part <:+ released ++ held' → part.length ≤ held'.length) :
    Safe secrets (out ++ released) held' where
  clean := by
    rw [List.append_assoc]
    exact h.append hredacts hapart
  begun secret hsecret part hpart hne hsuffix := by
    rw [List.append_assoc] at hsuffix
    have hlength := h.length_le hredacts hsecret (hapart secret hsecret) hpart hne hsuffix
    exact hheld secret hsecret part hpart hne
      (List.suffix_of_suffix_length_le hsuffix (List.suffix_append out _) hlength)

end

end Autobuild.Redaction
