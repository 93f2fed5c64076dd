import DshLmc.Proof.NagiosFraming
import Mathlib

/-!
# The attributes of checks

The name of an attribute is the host in camel case with the service, or a fixed text, behind it. Case
folding undoes the capitals of camel case, so that for Tango, which ignores case, the host counts as its
characters without separators and blanks. Nothing marks where the host ends: two names are the same
when what one host has more than the other one stands at the beginning of the other's service.
-/

namespace DshLmc

/-- A name as Tango compares it. -/
def ignoringCase (name : List Char) : List Char := name.map Char.toLower

/-- What Tango sees of a host: separators and blanks are gone. -/
def reducedHost (host : List Char) : List Char :=
  ignoringCase (host.filter fun ch =>
    ch ∉ ['-', '_', ',', ';'] ∧ ch ∉ [' ', '\t', '\n', '\x0b', '\x0c', '\r'])

namespace NagiosCheck

/-- What stands behind the host in the name of the status, or of the full information. -/
def behindHost (c : NagiosCheck) (isFullInfoAttr : Bool) : List Char :=
  c.service.getD "HostStatus".toList ++ if isFullInfoAttr then "Info".toList else []

end NagiosCheck

/-- What an attribute is about: the host, the service if there is one, and which of the two it is. -/
def NagiosAttrUpdate.subject (update : NagiosAttrUpdate) (c : NagiosCheck) :
    List Char × Option (List Char) × Bool :=
  (c.host, c.service, update.isFullInfoAttr)

/-- Attributes about different things have different names, over all messages that are processed. -/
def NagiosAttrsDistinct : Prop :=
  ∀ (msg₁ msg₂ : List Char) (c₁ c₂ : NagiosCheck) (updates₁ updates₂ : List NagiosAttrUpdate),
    processEvent msg₁ = .check c₁ updates₁ → processEvent msg₂ = .check c₂ updates₂ →
      ∀ u₁ ∈ updates₁, ∀ u₂ ∈ updates₂, u₁.subject c₁ ≠ u₂.subject c₂ →
        ignoringCase u₁.attr_name ≠ ignoringCase u₂.attr_name

/-- A capital becomes another letter, and everything else stays. -/
theorem toLower_cases (ch : Char) :
    ch.toLower = ch ∨ ch.isAlpha ∧ ch.toLower.isAlpha ∧ ch.toLower.toLower = ch.toLower := by
  have hletters : ∀ n < 26, (Char.ofNat (65 + n)).isAlpha ∧ (Char.ofNat (65 + n)).toLower.isAlpha ∧
      (Char.ofNat (65 + n)).toLower.toLower = (Char.ofNat (65 + n)).toLower := by decide
  by_cases h : ch.val ≥ 'A'.val ∧ ch.val ≤ 'Z'.val
  · right
    have hlower : 65 ≤ ch.toNat := UInt32.le_iff_toNat_le.mp h.1
    have hupper : ch.toNat ≤ 90 := UInt32.le_iff_toNat_le.mp h.2
    have hch := hletters (ch.toNat - 65) (by omega)
    rwa [Nat.add_sub_cancel' hlower, Char.ofNat_toNat] at hch
  · left
    exact dif_neg h

theorem toLower_toLower (ch : Char) : ch.toLower.toLower = ch.toLower := by
  rcases toLower_cases ch with h | h
  · rw [h, h]
  · exact h.2.2

/-- Membership in a list without letters does not depend on case. -/
theorem toLower_mem {ch : Char} {chars : List Char} (hchars : chars.any Char.isAlpha = false) :
    ch.toLower ∈ chars ↔ ch ∈ chars := by
  rcases toLower_cases ch with h | ⟨hch, hlower, -⟩
  · rw [h]
  · have hne := List.any_eq_false.mp hchars
    exact iff_of_false (fun hmem => hne _ hmem hlower) (fun hmem => hne _ hmem hch)

@[simp]
theorem ignoringCase_append (first second : List Char) :
    ignoringCase (first ++ second) = ignoringCase first ++ ignoringCase second :=
  List.map_append

theorem ignoringCase_flatten (words : List (List Char)) :
    ignoringCase words.flatten = (words.map ignoringCase).flatten :=
  List.map_flatten

@[simp]
theorem ignoringCase_capitalize (word : List Char) :
    ignoringCase (capitalize word) = ignoringCase word := by
  induction word with
  | nil => rfl
  | cons ch word ih =>
      rw [capitalize]
      split
      · simp [ignoringCase]
      · simpa [ignoringCase] using ih

/-- The parts of a text without the characters where it was split. -/
theorem flatten_splitOnP (p : Char → Bool) (text : List Char) :
    (text.splitOnP p).flatten = text.filter (!p ·) := by
  induction text with
  | nil => rfl
  | cons ch text ih =>
      obtain ⟨first, rest, hparts⟩ := List.exists_cons_of_ne_nil (List.splitOnP_ne_nil p text)
      rw [List.splitOnP_cons_eq_if_modifyHead]
      rw [hparts] at ih ⊢
      by_cases hch : p ch
      · simpa [hch] using ih
      · simpa [hch] using ih

theorem flatten_filter_ne_nil (words : List (List Char)) :
    (words.filter (· ≠ [])).flatten = words.flatten := by
  induction words with
  | nil => rfl
  | cons word words ih =>
      by_cases hword : word = []
      · simpa [hword] using ih
      · simpa [hword] using ih

/-- Capitals in all words but the first make no difference. -/
theorem ignoringCase_joined (words : List (List Char)) :
    ignoringCase (words.head?.getD [] ++ (words.tail.map capitalize).flatten)
      = ignoringCase words.flatten := by
  cases words with
  | nil => rfl
  | cons word words =>
      have hrest : ignoringCase (words.map capitalize).flatten = ignoringCase words.flatten := by
        rw [ignoringCase_flatten, ignoringCase_flatten, List.map_map]
        congr 2
        funext word
        exact ignoringCase_capitalize word
      simp [hrest]

theorem ignoringCase_transformToCamelCase (host : List Char) :
    ignoringCase (transformToCamelCase host) = reducedHost host := by
  rw [transformToCamelCase, ignoringCase_joined, flatten_filter_ne_nil, flatten_splitOnP]
  induction host with
  | nil => rfl
  | cons ch host ih =>
      have hspace : ch.toLower ∈ [' ', '\t', '\n', '\x0b', '\x0c', '\r']
          ↔ ch ∈ [' ', '\t', '\n', '\x0b', '\x0c', '\r'] := toLower_mem (by decide)
      rw [reducedHost] at ih ⊢
      by_cases hseparator : ch ∈ ['-', '_', ',', ';']
      · have hblank : ' ' ∈ [' ', '\t', '\n', '\x0b', '\x0c', '\r'] := by decide
        simp only [List.map_cons, hseparator, decide_true, if_true, List.filter_cons, hblank,
          Bool.not_true, Bool.false_eq_true, if_false, not_true, false_and, decide_false]
        exact ih
      · by_cases hblank : ch ∈ [' ', '\t', '\n', '\x0b', '\x0c', '\r']
        · have hlower := hspace.mpr hblank
          simp only [List.map_cons, hseparator, decide_false, Bool.false_eq_true, if_false,
            List.filter_cons, hlower, hblank, decide_true, Bool.not_true, not_true, and_false]
          exact ih
        · have hlower := mt hspace.mp hblank
          simp only [List.map_cons, hseparator, decide_false, Bool.false_eq_true, if_false,
            List.filter_cons, hlower, hblank, Bool.not_false, if_true, not_false_eq_true,
            and_self, decide_true, ignoringCase, List.map_cons, toLower_toLower]
          exact congrArg _ ih

theorem attr_name_of_mem_updates {c : NagiosCheck} {stateCode : Nat} {u : NagiosAttrUpdate}
    (hu : u ∈ c.updates stateCode) :
    u.attr_name = transformToCamelCase c.host ++ c.behindHost u.isFullInfoAttr := by
  obtain ⟨host, service, oldState, newState, data⟩ := c
  simp only [NagiosCheck.updates, List.mem_cons, List.not_mem_nil, or_false] at hu
  cases service <;> rcases hu with rfl | rfl <;> simp [NagiosCheck.behindHost]

theorem attr_name_of_processEvent {msg : List Char} {c : NagiosCheck}
    {updates : List NagiosAttrUpdate} (h : processEvent msg = .check c updates)
    {u : NagiosAttrUpdate} (hu : u ∈ updates) :
    ignoringCase u.attr_name
      = reducedHost c.host ++ ignoringCase (c.behindHost u.isFullInfoAttr) := by
  obtain ⟨hread, hstoi⟩ := processEvent_eq_check h
  obtain ⟨stateCode, hcode⟩ := Option.ne_none_iff_exists'.mp hstoi
  have hupdates : processEvent msg = .check c (c.updates stateCode) := by
    simp [processEvent, hread, NagiosCheck.process, hcode]
  obtain ⟨-, rfl⟩ := ProcessEvent.check.inj (h.symm.trans hupdates)
  calc ignoringCase u.attr_name
      = ignoringCase (transformToCamelCase c.host ++ c.behindHost u.isFullInfoAttr) := by
        rw [attr_name_of_mem_updates hu]
    _ = reducedHost c.host ++ ignoringCase (c.behindHost u.isFullInfoAttr) := by
        rw [ignoringCase_append, ignoringCase_transformToCamelCase]

section TwoAttributes

variable {msg₁ msg₂ : List Char} {c₁ c₂ : NagiosCheck} {updates₁ updates₂ : List NagiosAttrUpdate}
  {u₁ u₂ : NagiosAttrUpdate}

/-- **Names of attributes.** Two names are the same for Tango exactly when one host, reduced, begins
with the other one, and the characters that it has in addition stand at the beginning of what is behind
the other host. -/
theorem nagiosNames_agree_iff (h₁ : processEvent msg₁ = .check c₁ updates₁)
    (h₂ : processEvent msg₂ = .check c₂ updates₂) (hu₁ : u₁ ∈ updates₁) (hu₂ : u₂ ∈ updates₂) :
    ignoringCase u₁.attr_name = ignoringCase u₂.attr_name
      ↔ (∃ rest, reducedHost c₂.host = reducedHost c₁.host ++ rest ∧
          ignoringCase (c₁.behindHost u₁.isFullInfoAttr)
            = rest ++ ignoringCase (c₂.behindHost u₂.isFullInfoAttr)) ∨
        ∃ rest, reducedHost c₁.host = reducedHost c₂.host ++ rest ∧
          ignoringCase (c₂.behindHost u₂.isFullInfoAttr)
            = rest ++ ignoringCase (c₁.behindHost u₁.isFullInfoAttr) := by
  rw [attr_name_of_processEvent h₁ hu₁, attr_name_of_processEvent h₂ hu₂, List.append_eq_append_iff]

end TwoAttributes

def pingCheck (host : List Char) : NagiosCheck :=
  ⟨host, some "ping".toList, ['0'], ['1'], "late".toList⟩

theorem processEvent_pingCheck :
    processEvent (pingCheck "dish-1".toList).text
        = .check (pingCheck "dish-1".toList) ((pingCheck "dish-1".toList).updates 1) ∧
      processEvent (pingCheck "dish1".toList).text
        = .check (pingCheck "dish1".toList) ((pingCheck "dish1".toList).updates 1) := by
  decide

/-- The hosts `dish-1` and `dish1` have one attribute for both pings. -/
theorem not_nagiosAttrsDistinct : ¬NagiosAttrsDistinct := by
  intro h
  exact h _ _ _ _ _ _ processEvent_pingCheck.1 processEvent_pingCheck.2 _ List.mem_cons_self _
    List.mem_cons_self (by decide) (by decide)

theorem nagiosNames_agree_iff_pings :
    ignoringCase "dish1ping".toList = ignoringCase "dish1ping".toList
      ↔ (∃ rest, reducedHost "dish1".toList = reducedHost "dish-1".toList ++ rest ∧
          "ping".toList = rest ++ "ping".toList) ∨
        ∃ rest, reducedHost "dish-1".toList = reducedHost "dish1".toList ++ rest ∧
          "ping".toList = rest ++ "ping".toList :=
  nagiosNames_agree_iff processEvent_pingCheck.1 processEvent_pingCheck.2 List.mem_cons_self
    List.mem_cons_self

end DshLmc
