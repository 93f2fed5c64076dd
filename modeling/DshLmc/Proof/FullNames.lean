import Mathlib.Data.List.TakeWhile
import DshLmc.Proof.NameParsing

/-!
# Full attribute names

Which names the parser of full attribute names should accept, when it does just that, and when its
two overloads say the same.
-/

namespace DshLmc

namespace TangoUtils

open Search

def IsPart (part : List Char) : Prop := part ≠ [] ∧ '/' ∉ part ∧ ':' ∉ part

/-- `[tango://host:port/]` -/
inductive IsFacility : List Char → Prop
  | none : IsFacility []
  | fqdn {host port : List Char} (hhost : IsPart host) (hport : IsPart port) :
      IsFacility (tangoPrefix ++ (host ++ ':' :: port) ++ ['/'])

/-- `domain/family/member/attr[.quality]` -/
def IsPath (path : List Char) : Prop :=
  ∃ domain family member attr suffix, IsPart domain ∧ IsPart family ∧ IsPart member ∧ IsPart attr
    ∧ (suffix = [] ∨ suffix = qualitySuffix)
    ∧ path = domain ++ '/' :: (family ++ '/' :: (member ++ '/' :: (attr ++ suffix)))

def IsFullAttrName (s : List Char) : Prop :=
  ∃ facility path, IsFacility facility ∧ IsPath path ∧ s = facility ++ path

variable {s p h r t u v : List Char} {name : FullAttrName}

theorem isPath_iff : IsPath t ↔ Parts '/' 4 t ∧ ':' ∉ t := by
  constructor
  · rintro ⟨domain, family, member, attr, suffix, hdomain, hfamily, hmember, hattr, hsuffix, rfl⟩
    have hlast : IsPart (attr ++ suffix) := by
      obtain rfl | rfl := hsuffix
      · rwa [List.append_nil]
      · refine ⟨List.append_ne_nil_of_left_ne_nil hattr.1 _, ?_, ?_⟩
        · rw [List.mem_append, not_or]
          exact ⟨hattr.2.1, by decide⟩
        · rw [List.mem_append, not_or]
          exact ⟨hattr.2.2, by decide⟩
    constructor
    · rw [parts_append_cons_iff hdomain.2.1, parts_append_cons_iff hfamily.2.1,
        parts_append_cons_iff hmember.2.1, parts_one_iff]
      exact ⟨hdomain.1, hfamily.1, hmember.1, hlast.1, hlast.2.1⟩
    · simp [hdomain.2.2, hfamily.2.2, hmember.2.2, List.mem_append.not.mp hlast.2.2]
  · rintro ⟨hparts, hcolon⟩
    obtain ⟨domain, t, rfl, hdomain, hdomain', hparts⟩ := (parts_succ_iff (by omega)).mp hparts
    obtain ⟨family, t, rfl, hfamily, hfamily', hparts⟩ := (parts_succ_iff (by omega)).mp hparts
    obtain ⟨member, t, rfl, hmember, hmember', hparts⟩ := (parts_succ_iff (by omega)).mp hparts
    obtain ⟨hattr, hattr'⟩ := parts_one_iff.mp hparts
    simp only [List.mem_append, List.mem_cons, not_or] at hcolon
    obtain ⟨hcolon₁, -, hcolon₂, -, hcolon₃, -, hcolon₄⟩ := hcolon
    exact ⟨domain, family, member, t, [], ⟨hdomain, hdomain', hcolon₁⟩, ⟨hfamily, hfamily', hcolon₂⟩,
      ⟨hmember, hmember', hcolon₃⟩, ⟨hattr, hattr', hcolon₄⟩, .inl rfl, by rw [List.append_nil]⟩

theorem isFullAttrName_plain_iff (htango : ¬ tangoPrefix <:+: s) :
    IsFullAttrName s ↔ Parts '/' 4 s ∧ ':' ∉ s := by
  rw [← isPath_iff]
  constructor
  · rintro ⟨facility, path, hfacility, hpath, rfl⟩
    cases hfacility with
    | none => exact hpath
    | fqdn hhost hport =>
        apply absurd _ htango
        rw [List.append_assoc, List.append_assoc]
        exact List.infix_append_left
  · intro hpath
    exact ⟨[], s, .none, hpath, rfl⟩

theorem isFullAttrName_fqdn_iff (htango : tangoPrefix <:+: s) (hs : HasFacility s p h r) :
    IsFullAttrName s ↔ p = tangoPrefix ∧ Parts ':' 2 h ∧ Parts '/' 4 r ∧ ':' ∉ r := by
  rw [← isPath_iff]
  constructor
  · rintro ⟨facility, path, hfacility, hpath, rfl⟩
    cases hfacility with
    | none => exact absurd htango (tangoPrefix_not_within (isPath_iff.mp hpath).1)
    | @fqdn host port hhost hport =>
        have hslash : '/' ∉ host ++ ':' :: port := by simp [hhost.2.1, hport.2.1]
        obtain ⟨rfl, rfl, rfl⟩ := hs.unique (List.append_assoc ..) rfl hslash
        refine ⟨rfl, ?_, hpath⟩
        rw [parts_append_cons_iff hhost.2.2, parts_one_iff]
        exact ⟨hhost.1, hport.1, hport.2.2⟩
  · rintro ⟨rfl, hparts, hpath⟩
    obtain ⟨host, port, rfl, hhost, hcolon, hport⟩ := (parts_succ_iff (by omega)).mp hparts
    obtain ⟨hport, hcolon'⟩ := parts_one_iff.mp hport
    have hslash := hs.slash
    rw [List.mem_append, List.mem_cons, not_or, not_or] at hslash
    refine ⟨_, r, .fqdn ⟨hhost, hslash.1, hcolon⟩ ⟨hport, hslash.2.2, hcolon'⟩, hpath, ?_⟩
    rw [hs.eq, List.append_assoc _ ['/']]
    rfl

theorem checked_of_isFullAttrName (hs : IsFullAttrName s) : Checked s := by
  by_cases htango : tangoPrefix <:+: s
  · obtain ⟨facility, path, hfacility, hpath, rfl⟩ := hs
    cases hfacility with
    | none => exact absurd htango (tangoPrefix_not_within (isPath_iff.mp hpath).1)
    | @fqdn host port hhost hport =>
        refine .inr ⟨htango, tangoPrefix, host ++ ':' :: port, path, List.append_assoc .., rfl, ?_, ?_⟩
        · simp [hhost.2.1, hport.2.1]
        · simp
  · obtain ⟨hparts, hcolon⟩ := (isFullAttrName_plain_iff htango).mp hs
    refine .inl ⟨htango, hcolon, hparts.not_infix, ?_⟩
    rw [← List.count_pos_iff]
    have hcount := hparts.1
    omega

/-- The parser accepts the name if and only if it is of the grammar, its results make up the name
again, and any other name gives -1. -/
structure ParsesExactly (s : List Char) : Prop where
  accepts : (∃ name, parseFullAttrName₅ s = .ok name) ↔ IsFullAttrName s
  rejoins : ∀ name, parseFullAttrName₅ s = .ok name → name.full = s
  rejects : ¬ IsFullAttrName s → parseFullAttrName₅ s = .error .failed

/-- A name that passes the checks of the parser has four parts that are not empty, behind `tango://`
and a `host:port` if it has `tango://` at all. The tag is in its last part at the end only. -/
structure WellFormed (s : List Char) : Prop where
  plain : ¬ tangoPrefix <:+: s → PlainChecks s → Parts '/' 4 s
  fqdn : tangoPrefix <:+: s → ∀ p h r, HasFacility s p h r →
    p = tangoPrefix ∧ Parts ':' 2 h ∧ Parts '/' 4 r ∧ ':' ∉ r
  tag : Checked s → ∀ u v, s = u ++ '/' :: v → '/' ∉ v → QualityAtEnd v

theorem parsesExactly_of_not_checked (hs : ¬ Checked s) : ParsesExactly s where
  accepts := by
    refine iff_of_false ?_ fun hname => hs (checked_of_isFullAttrName hname)
    rintro ⟨name, hname⟩
    rw [parseFullAttrName₅_eq_failed hs] at hname
    cases hname
  rejoins := by
    intro name hname
    rw [parseFullAttrName₅_eq_failed hs] at hname
    cases hname
  rejects := fun _ => parseFullAttrName₅_eq_failed hs

theorem parsesExactly_iff_of_ok (hname : parseFullAttrName₅ s = .ok name) :
    ParsesExactly s ↔ IsFullAttrName s ∧ name.full = s := by
  constructor
  · intro hs
    exact ⟨hs.accepts.mp ⟨name, hname⟩, hs.rejoins name hname⟩
  · rintro ⟨hs, hfull⟩
    refine ⟨iff_of_true ⟨name, hname⟩ hs, ?_, fun hnot => absurd hs hnot⟩
    intro name' hname'
    rw [hname] at hname'
    rwa [← Except.ok.inj hname']

theorem CutAtLast.full_iff (hcut : CutAtLast s name u v) :
    name.full = s ↔ ∀ u' v', s = u' ++ '/' :: v' → '/' ∉ v' → QualityAtEnd v' := by
  rw [FullAttrName.full, hcut.path]
  constructor
  · intro hfull u' v' heq hv'
    rw [hcut.eq] at hfull heq
    obtain ⟨rfl, rfl⟩ := append_cons_last_inj hcut.last hv' heq
    exact hcut.tag.mp (List.tail_eq_of_cons_eq (List.append_cancel_left hfull))
  · intro htag
    rw [hcut.tag.mpr (htag u v hcut.eq hcut.last), hcut.eq]

theorem wellFormed_fqdn_iff (htango : tangoPrefix <:+: s) (hs : HasFacility s p h r) :
    WellFormed s ↔ IsFullAttrName s
      ∧ ∀ u v, s = u ++ '/' :: v → '/' ∉ v → QualityAtEnd v := by
  rw [isFullAttrName_fqdn_iff htango hs]
  constructor
  · intro hwf
    exact ⟨hwf.fqdn htango p h r hs, hwf.tag (.inr ⟨htango, p, h, r, hs⟩)⟩
  · rintro ⟨hparts, htag⟩
    refine ⟨fun hnot => absurd htango hnot, ?_, fun _ => htag⟩
    intro _ p' h' r' hs'
    obtain ⟨rfl, rfl, rfl⟩ := hs.unique hs'.eq hs'.length hs'.slash
    exact hparts

theorem wellFormed_iff_of_checked (hs : Checked s) :
    WellFormed s ↔ IsFullAttrName s
      ∧ ∀ u v, s = u ++ '/' :: v → '/' ∉ v → QualityAtEnd v := by
  obtain ⟨htango, hplain⟩ | ⟨htango, p, h, r, hfacility⟩ := id hs
  · rw [isFullAttrName_plain_iff htango]
    constructor
    · intro hwf
      exact ⟨⟨hwf.plain htango hplain, hplain.colon⟩, hwf.tag hs⟩
    · rintro ⟨hparts, htag⟩
      exact ⟨fun _ _ => hparts.1, fun htango' => absurd htango' htango, fun _ => htag⟩
  · exact wellFormed_fqdn_iff htango hfacility

theorem parsesExactly_iff (s : List Char) : ParsesExactly s ↔ WellFormed s := by
  by_cases hs : Checked s
  · obtain ⟨name, hname, hcut⟩ := exists_parseFullAttrName₅_eq hs
    rw [parsesExactly_iff_of_ok hname, wellFormed_iff_of_checked hs]
    cases hcut with
    | last hcut => rw [hcut.full_iff]
    | @twice p h r hfacility hr hpath =>
        -- the path alone is the whole name already
        have hfull : name.full ≠ s := by
          intro hfull
          have hlength := congrArg List.length hfull
          rw [FullAttrName.full, hpath, List.length_append, List.length_cons] at hlength
          omega
        have hnot : ¬ IsFullAttrName s := by
          obtain ⟨htango, -⟩ | ⟨htango, -⟩ := hs
          · intro hname
            have hcolon := ((isFullAttrName_plain_iff htango).mp hname).2
            rw [hfacility.eq] at hcolon
            exact hcolon (by simp [hfacility.colon])
          · rw [isFullAttrName_fqdn_iff htango hfacility]
            rintro ⟨-, -, hparts, -⟩
            have hcount := hparts.1
            rw [List.count_eq_zero.mpr hr] at hcount
            omega
        exact iff_of_false (fun hboth => hfull hboth.2) fun hboth => hnot hboth.1
  · refine iff_of_true (parsesExactly_of_not_checked hs) ⟨?_, ?_, fun hchecked => absurd hchecked hs⟩
    · exact fun htango hplain => absurd (.inl ⟨htango, hplain⟩) hs
    · exact fun htango p h r hfacility => absurd (.inr ⟨htango, p, h, r, hfacility⟩) hs

theorem not_parsesExactly_sample : ¬ ParsesExactly "dev/myattr".toList := by
  intro hs
  have hok : parseFullAttrName₅ "dev/myattr".toList
      = .ok ⟨[], "dev".toList, "myattr".toList, false⟩ := rfl
  have htango : ¬ tangoPrefix <:+: "dev/myattr".toList := by
    rw [← find_eq_none_iff]
    rfl
  have hname := hs.accepts.mp ⟨_, hok⟩
  have hcount := ((isFullAttrName_plain_iff htango).mp hname).1.1
  cases hcount

section Scan

variable {n k : Nat} {device_name attr_name : List Char}

theorem foldl_scanChar_device (hu : k + u.count '/' < n) :
    u.foldl (scanChar n) (k, device_name, attr_name)
      = (k + u.count '/', device_name ++ u, attr_name) := by
  induction u generalizing k device_name with
  | nil => simp
  | cons c u ih =>
      rw [List.foldl_cons]
      by_cases hc : c = '/'
      · subst hc
        rw [List.count_cons_self] at hu ⊢
        have hstep : scanChar n (k, device_name, attr_name) '/'
            = (k + 1, device_name ++ ['/'], attr_name) := by
          rw [scanChar]
          exact if_pos (show k + 1 < n by omega)
        rw [hstep, ih (by omega), List.append_assoc, List.singleton_append]
        congr 1
        omega
      · rw [List.count_cons_of_ne hc] at hu ⊢
        have hstep : scanChar n (k, device_name, attr_name) c
            = (k, device_name ++ [c], attr_name) := by
          rw [scanChar, if_neg hc]
          exact if_pos (show k < n by omega)
        rw [hstep, ih hu, List.append_assoc, List.singleton_append]

theorem foldl_scanChar_attr (hk : n ≤ k) :
    v.foldl (scanChar n) (k, device_name, attr_name)
      = (k + v.count '/', device_name, attr_name ++ v.filter (· ≠ '/')) := by
  induction v generalizing k attr_name with
  | nil => simp
  | cons c v ih =>
      rw [List.foldl_cons]
      by_cases hc : c = '/'
      · subst hc
        have hstep : scanChar n (k, device_name, attr_name) '/'
            = (k + 1, device_name, attr_name) := by
          rw [scanChar]
          exact if_neg (show ¬ k + 1 < n by omega)
        rw [hstep, ih (by omega), List.count_cons_self, List.filter_cons_of_neg (by simp)]
        congr 1
        omega
      · have hstep : scanChar n (k, device_name, attr_name) c
            = (k, device_name, attr_name ++ [c]) := by
          rw [scanChar, if_neg hc, if_neg (show ¬ k < n by omega)]
          exact if_pos hc
        rw [hstep, ih hk, List.count_cons_of_ne hc, List.filter_cons_of_pos (by simpa using hc),
          List.append_assoc, List.singleton_append]

theorem foldl_scanChar_cut (hu : u.count '/' + 1 = n) :
    ((u ++ '/' :: v).foldl (scanChar n) (0, [], [])).2 = (u, v.filter (· ≠ '/')) := by
  have hstep : scanChar n (u.count '/', u, []) '/' = (u.count '/' + 1, u, []) := by
    rw [scanChar]
    exact if_neg (show ¬ u.count '/' + 1 < n by omega)
  have hdevice : u.foldl (scanChar n) (0, [], []) = (0 + u.count '/', [] ++ u, []) :=
    foldl_scanChar_device (by omega)
  rw [Nat.zero_add, List.nil_append] at hdevice
  rw [List.foldl_append, hdevice, List.foldl_cons, hstep, foldl_scanChar_attr (by omega),
    List.nil_append]

end Scan

theorem one_le_numSlashes (s : List Char) : 1 ≤ numSlashes s := by
  rw [numSlashes]
  split <;> omega

/-- An accepted name is cut at the slash that the loop counts to, and the slashes behind it go. -/
theorem cut_of_parseFullAttrName₂ {names : List Char × List Char}
    (h : parseFullAttrName₂ s = .ok names) :
    ∃ u v, s.takeWhile (· ≠ '\x00') = u ++ '/' :: v ∧ u.count '/' + 1 = numSlashes s
      ∧ names = (u, v.filter (· ≠ '/')) := by
  have hpos := one_le_numSlashes s
  rw [parseFullAttrName₂] at h
  by_cases hcount : (s.takeWhile (· ≠ '\x00')).count '/' < numSlashes s
  · rw [foldl_scanChar_device (by omega)] at h
    have hnil : ¬ (([] ++ s.takeWhile (· ≠ '\x00')) = [] ∨ ([] : List Char) = []) := by
      intro hnil
      rw [if_pos hnil] at h
      cases h
    exact absurd (.inr rfl) hnil
  · obtain ⟨u, v, heq, hu⟩ := exists_append_cons_count
      (show numSlashes s - 1 < (s.takeWhile (· ≠ '\x00')).count '/' by omega)
    have hu' : u.count '/' + 1 = numSlashes s := by omega
    rw [heq, foldl_scanChar_cut hu'] at h
    refine ⟨u, v, heq, hu', ?_⟩
    split at h
    · cases h
    · exact (Except.ok.inj h).symm

/-! ### The two overloads -/

/-- The device is the domain and the device, and the attribute is the attribute with its tag. -/
def OverloadsAgree (names : List Char × List Char) (name : FullAttrName) : Prop :=
  names.1 = name.path ∧ names.2 = name.attr_name ++ name.suffix

/-- A name of which the loop reads all is cut at the same place. -/
theorem overloadsAgree_of_cut {names : List Char × List Char}
    (hnames : parseFullAttrName₂ s = .ok names) (hcut : CutAtLast s name u v) :
    OverloadsAgree names name ↔ '\x00' ∉ s ∧ s.count '/' = numSlashes s
      ∧ ∀ u v, s = u ++ '/' :: v → '/' ∉ v → QualityAtEnd v := by
  obtain ⟨u', v', hread, hu', rfl⟩ := cut_of_parseFullAttrName₂ hnames
  rw [OverloadsAgree, hcut.path]
  constructor
  · rintro ⟨hdevice, hattr⟩
    obtain rfl : u' = u := hdevice
    -- what was read is a prefix of the name, and the attribute in it is as long as the whole one
    have hpre : u' ++ '/' :: v' <+: u' ++ '/' :: v := by
      rw [← hread, ← hcut.eq]
      exact List.takeWhile_prefix _
    have hpre' : v' <+: v := by
      rw [List.prefix_append_right_inj, List.cons_prefix_cons] at hpre
      exact hpre.2
    have hlength : v.length ≤ v'.length := by
      calc v.length = (v'.filter (· ≠ '/')).length := by rw [← hcut.length, ← hattr]
        _ ≤ v'.length := List.length_filter_le _ _
    obtain rfl : v' = v := hpre'.eq_of_length_le hlength
    have hall : s.takeWhile (· ≠ '\x00') = s := by rw [hread, ← hcut.eq]
    refine ⟨?_, ?_, ?_⟩
    · intro hmem
      have hne := List.takeWhile_eq_self_iff.mp hall _ hmem
      simp at hne
    · rw [← hu', hcut.eq, List.count_append, List.count_cons_self,
        List.count_eq_zero.mpr hcut.last]
    · intro u'' v'' heq hv''
      rw [hcut.eq] at heq
      obtain ⟨rfl, rfl⟩ := append_cons_last_inj hcut.last hv'' heq
      apply hcut.tag.mp
      rw [← hattr, List.filter_eq_self]
      intro c hc
      simpa using ne_of_mem_of_not_mem hc hcut.last
  · rintro ⟨hnull, hcount, htag⟩
    have hall : s.takeWhile (· ≠ '\x00') = s := by
      rw [List.takeWhile_eq_self_iff]
      intro c hc
      simpa using ne_of_mem_of_not_mem hc hnull
    have heq : s = u' ++ '/' :: v' := by rw [← hread, hall]
    have hv' : '/' ∉ v' := by
      have hsplit : s.count '/' = u'.count '/' + (v'.count '/' + 1) := by
        rw [heq, List.count_append, List.count_cons_self]
      exact List.count_eq_zero.mp (by omega)
    have hfilter : v'.filter (· ≠ '/') = v' := by
      rw [List.filter_eq_self]
      intro c hc
      simpa using ne_of_mem_of_not_mem hc hv'
    obtain ⟨rfl, rfl⟩ := append_cons_last_inj hcut.last hv' (hcut.eq.symm.trans heq)
    exact ⟨rfl, hfilter.trans (hcut.tag.mpr (htag u v hcut.eq hcut.last)).symm⟩

/-- A name with `tango://` and one `/` behind the facility has three of them. -/
theorem count_slash_of_hasFacility (htango : tangoPrefix <:+: s) (hs : HasFacility s p h r)
    (hr : '/' ∉ r) : s.count '/' = 3 := by
  have hrest : (h ++ '/' :: r).count '/' = 1 := by
    rw [List.count_append, List.count_eq_zero.mpr hs.slash, List.count_cons_self,
      List.count_eq_zero.mpr hr]
  suffices hp : p = tangoPrefix by
    rw [hs.eq, List.append_assoc, List.count_append, hrest, hp]
    rfl
  rw [hs.eq, List.append_assoc, List.infix_append_iff_ne_nil] at htango
  obtain hwithin | hwithin | ⟨x, y, -, hne, heq, -, hy⟩ := htango
  · exact (hwithin.eq_of_length (by rw [hs.length]; rfl)).symm
  · have hle := hwithin.sublist.count_le '/'
    rw [hrest] at hle
    exact absurd hle (by decide)
  · -- a part of the prefix behind `p` would end with the only slash there, and start with it
    have hsuffix : y <:+ tangoPrefix := heq ▸ List.suffix_append x y
    have hpos := List.length_pos_of_ne_nil hne
    by_cases htwo : 2 ≤ y.length
    · have hdouble : ['/', '/'] <:+ y :=
        List.suffix_of_suffix_length_le ⟨"tango:".toList, rfl⟩ hsuffix htwo
      have hle := hdouble.sublist.count_le '/' |>.trans (hy.sublist.count_le '/')
      rw [hrest] at hle
      exact absurd hle (by decide)
    · have hone : ['/'] <:+ y :=
        List.suffix_of_suffix_length_le ⟨"tango:/".toList, rfl⟩ hsuffix hpos
      obtain rfl : ['/'] = y := hone.eq_of_length (by rw [List.length_singleton]; omega)
      cases h with
      | nil => exact absurd hs.colon List.not_mem_nil
      | cons c h =>
          obtain ⟨rfl, -⟩ := List.cons_prefix_cons.mp hy
          exact absurd List.mem_cons_self hs.slash

theorem overloadsAgree_iff {names : List Char × List Char} (hnames : parseFullAttrName₂ s = .ok names)
    (hname : parseFullAttrName₅ s = .ok name) :
    OverloadsAgree names name ↔ '\x00' ∉ s ∧ s.count '/' = numSlashes s
      ∧ ∀ u v, s = u ++ '/' :: v → '/' ∉ v → QualityAtEnd v := by
  have hchecked : Checked s := by
    by_contra hnot
    rw [parseFullAttrName₅_eq_failed hnot] at hname
    cases hname
  obtain ⟨name', hname', hcut⟩ := exists_parseFullAttrName₅_eq hchecked
  obtain rfl : name' = name := Except.ok.inj (hname'.symm.trans hname)
  cases hcut with
  | last hcut => exact overloadsAgree_of_cut hnames hcut
  | @twice p h r hfacility hr hpath =>
      obtain ⟨u, v, hread, hu, rfl⟩ := cut_of_parseFullAttrName₂ hnames
      -- the loop stops before the end of the name, and the path is all of it
      have hdevice : u ≠ s := by
        rintro rfl
        have hle := (List.takeWhile_prefix (l := u) (· ≠ '\x00')).length_le
        rw [hread, List.length_append, List.length_cons] at hle
        omega
      have hcount : s.count '/' ≠ numSlashes s := by
        obtain ⟨htango, hplain⟩ | ⟨htango, -⟩ := hchecked
        · have hcolon := hplain.colon
          rw [hfacility.eq] at hcolon
          exact absurd (by simp [hfacility.colon]) hcolon
        · rw [count_slash_of_hasFacility htango hfacility hr, numSlashes,
            if_pos (isSome_find_iff.mpr htango)]
          decide
      refine iff_of_false ?_ fun hall => hcount hall.2.1
      rintro ⟨hdevice', -⟩
      exact hdevice (hdevice'.trans hpath)

theorem overloadsAgree_sample : OverloadsAgree ("d/f/m".toList, "a.quality".toList)
    ⟨[], "d/f/m".toList, "a".toList, true⟩ := by
  refine (overloadsAgree_iff (s := "d/f/m/a.quality".toList) rfl rfl).mpr ⟨by decide, rfl, ?_⟩
  intro u v heq hv
  have hlast : '/' ∉ "a.quality".toList := by decide
  obtain ⟨rfl, rfl⟩ := append_cons_last_inj (u := "d/f/m".toList) hlast hv heq
  exact fun _ => ⟨"a".toList, rfl⟩

theorem not_overloadsAgree_sample :
    parseFullAttrName₂ "a/b/c/d/e".toList = .ok ("a/b/c".toList, "de".toList)
      ∧ parseFullAttrName₅ "a/b/c/d/e".toList = .ok ⟨[], "a/b/c/d".toList, "e".toList, false⟩
      ∧ ¬ OverloadsAgree ("a/b/c".toList, "de".toList)
        ⟨[], "a/b/c/d".toList, "e".toList, false⟩ := by
  refine ⟨rfl, rfl, ?_⟩
  rintro ⟨hdevice, -⟩
  cases hdevice

end TangoUtils

end DshLmc
