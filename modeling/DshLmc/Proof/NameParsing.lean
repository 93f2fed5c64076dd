import DshLmc.Utils.TangoNames

/-!
# What the name parsers cut out

The searches of the parsers on names that are written as appends of their pieces: a facility of the
form `tango://host:port` and what stands behind its `/`, and the first and the last `/` of a name.
-/

namespace DshLmc

namespace TangoUtils

open Search

variable {s p h r u v w : List Char} {pos : Nat}

@[simp]
theorem substr_append_left : substr (u ++ v) 0 (some u.length) = .ok u := by
  rw [substr, substr_prefix]
  rfl

@[simp]
theorem substr_append_right : substr (u ++ v) u.length none = .ok v := by
  rw [substr, substr_suffix]
  rfl

theorem substr_after (c : Char) : substr (u ++ c :: v) (u.length + 1) none = .ok v := by
  have h := substr_append_right (u := u ++ [c]) (v := v)
  simpa using h

theorem substr_between (c c' : Char) :
    substr (u ++ c :: (v ++ c' :: w)) (u.length + 1)
      (sizeSub (u ++ c :: v).length (u.length + 1)) = .ok v := by
  have hsize : sizeSub (u ++ c :: v).length (u.length + 1) = some v.length := by
    rw [sizeSub, List.length_append, List.length_cons, if_pos (by omega)]
    exact congrArg some (by omega)
  have hmiddle := substr_middle (u := u ++ [c]) (v := v) (w := c' :: w)
  rw [hsize, substr]
  rw [List.append_assoc, List.append_assoc, List.length_append, List.singleton_append,
    List.length_singleton] at hmiddle
  rw [hmiddle]
  rfl

theorem sizeSub_succ_self (n : Nat) : sizeSub n (n + 1) = none := if_neg (by omega)

theorem tangoPrefix_not_within {n : Nat} (hs : Parts '/' n s) : ¬ tangoPrefix <:+: s := by
  have hdouble : ['/', '/'] <:+: tangoPrefix := ⟨"tango:".toList, [], rfl⟩
  exact fun htango => hs.not_infix (hdouble.trans htango)

/-- Behind the first eight characters `p` there is `h`, with a `:` in it, up to the first `/`. -/
structure HasFacility (s p h r : List Char) : Prop where
  eq : s = p ++ h ++ '/' :: r
  length : p.length = 8
  slash : '/' ∉ h
  colon : ':' ∈ h

theorem HasFacility.unique {p' h' r' : List Char} (hs : HasFacility s p h r)
    (heq : s = p' ++ h' ++ '/' :: r') (hlength : p'.length = 8) (hslash : '/' ∉ h') :
    p = p' ∧ h = h' ∧ r = r' := by
  have happend : p ++ (h ++ '/' :: r) = p' ++ (h' ++ '/' :: r') := by
    rw [← List.append_assoc, ← List.append_assoc, ← hs.eq, ← heq]
  obtain ⟨rfl, hrest⟩ := List.append_inj happend (by rw [hs.length, hlength])
  have hfind := congrArg (findText ['/']) hrest
  rw [find_append_cons hs.slash, find_append_cons hslash] at hfind
  obtain ⟨rfl, hr⟩ := List.append_inj hrest (Option.some.inj hfind)
  exact ⟨rfl, rfl, List.tail_eq_of_cons_eq hr⟩

theorem HasFacility.facilityEnd (hs : HasFacility s p h r) :
    facilityEnd s = some (p ++ h).length := by
  obtain ⟨a, b, rfl, ha⟩ := List.eq_append_cons_of_mem hs.colon
  have hdrop : s.drop 8 = (a ++ ':' :: b) ++ '/' :: r := by
    rw [hs.eq, ← hs.length, List.append_assoc, List.drop_left]
  have hcolon : findFrom [':'] s 8 = some (a.length + 8) := by
    rw [findFrom, hdrop, List.append_assoc, List.cons_append, find_append_cons ha]
    rfl
  have hslash : findFrom ['/'] s 8 = some ((a ++ ':' :: b).length + 8) := by
    rw [findFrom, hdrop, find_append_cons hs.slash]
    rfl
  have hlt : a.length + 8 < (a ++ ':' :: b).length + 8 := by simp
  have hlength : (p ++ (a ++ ':' :: b)).length = (a ++ ':' :: b).length + 8 := by
    rw [List.length_append, hs.length, Nat.add_comm]
  rw [TangoUtils.facilityEnd, hcolon, hslash, hlength]
  exact if_pos hlt

theorem exists_hasFacility (h : facilityEnd s = some pos) : ∃ p h r, HasFacility s p h r := by
  rw [facilityEnd] at h
  split at h
  next pos_colon pos_slash hcolon hslash =>
    rw [Option.ite_none_right_eq_some] at h
    obtain ⟨n, hn, rfl⟩ := Option.map_eq_some_iff.mp hcolon
    obtain ⟨m, hm, rfl⟩ := Option.map_eq_some_iff.mp hslash
    have hmem : '/' ∈ s.drop 8 := by
      by_contra hnot
      rw [find_singleton_eq_none_iff.mpr hnot] at hm
      cases hm
    obtain ⟨h', r, hdrop, hnot⟩ := List.eq_append_cons_of_mem hmem
    obtain ⟨a, b, hab, rfl⟩ := find_eq_some hn
    rw [hdrop, find_append_cons hnot] at hm
    obtain rfl := Option.some.inj hm
    have hlength : (s.take 8).length = 8 := by
      rw [List.length_take, Nat.min_eq_left]
      have hpos := List.length_pos_of_mem hmem
      rw [List.length_drop] at hpos
      omega
    -- the colon stands before the slash
    have hcolon' : ':' ∈ h' := by
      have hlt : a.length < h'.length := by omega
      have hget := congrArg (·[a.length]?) (hdrop.symm.trans hab)
      simp only [List.append_assoc, List.getElem?_append_left hlt] at hget
      rw [List.getElem?_append_right (Nat.le_refl _), Nat.sub_self] at hget
      exact List.mem_of_getElem? hget
    refine ⟨s.take 8, h', r, ?_, hlength, hnot, hcolon'⟩
    rw [List.append_assoc, ← hdrop, List.take_append_drop]
  next => cases h

theorem HasFacility.findFrom (hs : HasFacility s p h r) :
    findFrom ['/'] s (p ++ h).length = some (p ++ h).length := by
  rw [hs.eq, findFrom_append]
  have hfirst : findText ['/'] ('/' :: r) = some 0 := find_append_cons (u := []) List.not_mem_nil
  rw [hfirst, Option.map_some, Nat.zero_add]

theorem HasFacility.substr (hs : HasFacility s p h r) :
    substr s 0 (some (p ++ h).length) = .ok (p ++ h) := by
  rw [hs.eq, substr_append_left]

def FullAttrName.suffix (name : FullAttrName) : List Char :=
  if name.hasQualityTag then qualitySuffix else []

/-- Where the tag occurs, the text ends with it. -/
def QualityAtEnd (text : List Char) : Prop := qualitySuffix <:+: text → qualitySuffix <:+ text

theorem splitQuality_eq (domain_name device_name attr_name : List Char) : ∃ name,
    splitQuality domain_name device_name attr_name = .ok name
      ∧ name.domain_name = domain_name ∧ name.device_name = device_name
      ∧ (name.attr_name ++ name.suffix).length = attr_name.length
      ∧ (name.attr_name ++ name.suffix = attr_name ↔ QualityAtEnd attr_name) := by
  rw [splitQuality]
  cases hfind : findText qualitySuffix attr_name with
  | none =>
      refine ⟨_, rfl, rfl, rfl, ?_, ?_⟩
      · exact congrArg List.length (List.append_nil attr_name)
      · exact iff_of_true (List.append_nil attr_name)
          fun hinfix => absurd hinfix (find_eq_none_iff.mp hfind)
  | some n =>
      have hinfix : qualitySuffix <:+: attr_name := by
        rw [← isSome_find_iff, hfind]
        rfl
      have hle : 8 ≤ attr_name.length := hinfix.length_le
      have hsub : substr attr_name 0 (sizeSub attr_name.length 8)
          = .ok (attr_name.take (attr_name.length - 8)) := by
        rw [sizeSub, if_pos hle, TangoUtils.substr, substr_of_le (Nat.zero_le _)]
        rfl
      refine ⟨⟨domain_name, device_name, attr_name.take (attr_name.length - 8), true⟩, ?_, rfl, rfl,
        ?_, ?_⟩
      · rw [hsub]
        rfl
      · have hlength : qualitySuffix.length = 8 := rfl
        rw [List.length_append, List.length_take, FullAttrName.suffix, if_pos rfl, hlength]
        omega
      · constructor
        · intro heq _
          exact ⟨_, heq⟩
        · intro hend
          obtain ⟨t, rfl⟩ := hend hinfix
          have hlength : (t ++ qualitySuffix).length - 8 = t.length := by
            rw [List.length_append]
            exact Nat.add_sub_cancel t.length 8
          rw [hlength, List.take_left]
          rfl

theorem parseFullAttrName₅_of_slash (htango : tangoPrefix <:+: s)
    (hs : HasFacility s p h (u ++ '/' :: v)) (hv : '/' ∉ v) :
    parseFullAttrName₅ s = splitQuality (p ++ h) u v := by
  have hlast : findLast '/' s = some ((p ++ h) ++ '/' :: u).length := by
    have happend : s = ((p ++ h) ++ '/' :: u) ++ '/' :: v := by
      rw [hs.eq, List.append_assoc (p ++ h), List.cons_append]
    rw [happend, findLast_append_cons hv]
  have hdevice : substr s ((p ++ h).length + 1)
      (sizeSub ((p ++ h) ++ '/' :: u).length ((p ++ h).length + 1)) = .ok u := by
    rw [hs.eq, substr_between]
  have hattr : substr s (((p ++ h) ++ '/' :: u).length + 1) none = .ok v := by
    have happend : s = ((p ++ h) ++ '/' :: u) ++ '/' :: v := by
      rw [hs.eq, List.append_assoc (p ++ h), List.cons_append]
    rw [happend, substr_after]
  obtain ⟨n, hn⟩ := Option.isSome_iff_exists.mp (isSome_find_iff.mpr htango)
  rw [parseFullAttrName₅, hn, hs.facilityEnd]
  simp only [hs.findFrom, hlast, hs.substr, hdevice, hattr]
  rfl

theorem parseFullAttrName₅_of_not_mem (htango : tangoPrefix <:+: s) (hs : HasFacility s p h r)
    (hr : '/' ∉ r) : parseFullAttrName₅ s = splitQuality (p ++ h) r r := by
  have hlast : findLast '/' s = some (p ++ h).length := by
    rw [hs.eq, findLast_append_cons hr]
  have hrest : substr s ((p ++ h).length + 1) none = .ok r := by
    rw [hs.eq, substr_after]
  obtain ⟨n, hn⟩ := Option.isSome_iff_exists.mp (isSome_find_iff.mpr htango)
  rw [parseFullAttrName₅, hn, hs.facilityEnd]
  simp only [hs.findFrom, hlast, hs.substr, sizeSub_succ_self, hrest]
  rfl

theorem parseFullAttrName₅_of_not_hasFacility (htango : tangoPrefix <:+: s)
    (hs : ∀ p h r, ¬ HasFacility s p h r) : parseFullAttrName₅ s = .error .failed := by
  obtain ⟨n, hn⟩ := Option.isSome_iff_exists.mp (isSome_find_iff.mpr htango)
  rw [parseFullAttrName₅, hn]
  cases hend : facilityEnd s with
  | none => rfl
  | some pos =>
      obtain ⟨p, h, r, hfacility⟩ := exists_hasFacility hend
      exact absurd hfacility (hs p h r)

/-- What the parser checks in a name without `tango://`. -/
structure PlainChecks (s : List Char) : Prop where
  colon : ':' ∉ s
  double : ¬ ['/', '/'] <:+: s
  slash : '/' ∈ s

theorem parseFullAttrName₅_plain (htango : ¬ tangoPrefix <:+: u ++ '/' :: v)
    (hs : PlainChecks (u ++ '/' :: v)) (hv : '/' ∉ v) :
    parseFullAttrName₅ (u ++ '/' :: v) = splitQuality [] u v := by
  obtain ⟨n, hn⟩ := Option.isSome_iff_exists.mp
    (isSome_find_iff.mpr ((List.singleton_infix_iff _ _).mpr hs.slash))
  rw [parseFullAttrName₅, find_eq_none_iff.mpr htango, find_singleton_eq_none_iff.mpr hs.colon,
    find_eq_none_iff.mpr hs.double, hn, findLast_append_cons hv]
  simp only [substr_append_left, substr_after]
  rfl

theorem parseFullAttrName₅_of_not_plainChecks (htango : ¬ tangoPrefix <:+: s)
    (hs : ¬ PlainChecks s) : parseFullAttrName₅ s = .error .failed := by
  rw [parseFullAttrName₅, find_eq_none_iff.mpr htango]
  cases hcolon : findText [':'] s with
  | some n => rfl
  | none =>
      cases hdouble : findText ['/', '/'] s with
      | some n => rfl
      | none =>
          have hslash : '/' ∉ s := by
            intro hslash
            exact hs ⟨find_singleton_eq_none_iff.mp hcolon, find_eq_none_iff.mp hdouble, hslash⟩
          rw [find_singleton_eq_none_iff.mpr hslash]

/-- `domain_name` and `device_name` joined by `/`, or just `device_name` without a domain. -/
def FullAttrName.path (name : FullAttrName) : List Char :=
  if name.domain_name = [] then name.device_name
  else name.domain_name ++ '/' :: name.device_name

def FullAttrName.full (name : FullAttrName) : List Char :=
  name.path ++ '/' :: (name.attr_name ++ name.suffix)

def Checked (s : List Char) : Prop :=
  (¬ tangoPrefix <:+: s ∧ PlainChecks s) ∨ (tangoPrefix <:+: s ∧ ∃ p h r, HasFacility s p h r)

/-- A name is cut at its last `/`, and the tag is cut off. -/
structure CutAtLast (s : List Char) (name : FullAttrName) (u v : List Char) : Prop where
  eq : s = u ++ '/' :: v
  last : '/' ∉ v
  path : name.path = u
  length : (name.attr_name ++ name.suffix).length = v.length
  tag : name.attr_name ++ name.suffix = v ↔ QualityAtEnd v

/-- A name that has one `/` behind its facility is cut there. Otherwise what is behind the facility is
taken for the device and for the attribute. -/
inductive Cut (s : List Char) (name : FullAttrName) : Prop where
  | last {u v : List Char} (h : CutAtLast s name u v)
  | twice {p h r : List Char} (hs : HasFacility s p h r) (hr : '/' ∉ r) (hpath : name.path = s)

theorem parseFullAttrName₅_eq_failed (hs : ¬ Checked s) :
    parseFullAttrName₅ s = .error .failed := by
  by_cases htango : tangoPrefix <:+: s
  · apply parseFullAttrName₅_of_not_hasFacility htango
    exact fun p h r hfacility => hs (.inr ⟨htango, p, h, r, hfacility⟩)
  · apply parseFullAttrName₅_of_not_plainChecks htango
    exact fun hplain => hs (.inl ⟨htango, hplain⟩)

theorem exists_parseFullAttrName₅_eq (hs : Checked s) :
    ∃ name, parseFullAttrName₅ s = .ok name ∧ Cut s name := by
  obtain ⟨htango, hplain⟩ | ⟨htango, p, h, r, hfacility⟩ := hs
  · obtain ⟨u, v, rfl, hv⟩ := exists_append_cons_last hplain.slash
    obtain ⟨name, hname, hdomain, hdevice, hlength, htag⟩ := splitQuality_eq [] u v
    refine ⟨name, by rw [parseFullAttrName₅_plain htango hplain hv, hname], .last (u := u) (v := v) ?_⟩
    refine ⟨rfl, hv, ?_, hlength, htag⟩
    rw [FullAttrName.path, if_pos hdomain, hdevice]
  · have hne : p ++ h ≠ [] := by
      have hlength := hfacility.length
      intro hnil
      rw [List.append_eq_nil_iff.mp hnil |>.1] at hlength
      cases hlength
    by_cases hr : '/' ∈ r
    · obtain ⟨u, v, rfl, hv⟩ := exists_append_cons_last hr
      obtain ⟨name, hname, hdomain, hdevice, hlength, htag⟩ := splitQuality_eq (p ++ h) u v
      refine ⟨name, by rw [parseFullAttrName₅_of_slash htango hfacility hv, hname],
        .last (u := p ++ h ++ '/' :: u) (v := v) ?_⟩
      refine ⟨?_, hv, ?_, hlength, htag⟩
      · rw [hfacility.eq, List.append_assoc (p ++ h), List.cons_append]
      · rw [FullAttrName.path, hdomain, if_neg hne, hdevice]
    · obtain ⟨name, hname, hdomain, hdevice, -, -⟩ := splitQuality_eq (p ++ h) r r
      refine ⟨name, by rw [parseFullAttrName₅_of_not_mem htango hfacility hr, hname],
        .twice hfacility hr ?_⟩
      rw [FullAttrName.path, hdomain, if_neg hne, hdevice, ← hfacility.eq]

end TangoUtils

end DshLmc
