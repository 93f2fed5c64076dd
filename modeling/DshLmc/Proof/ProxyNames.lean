import DshLmc.Proof.NameParsing

/-!
# Full names of devices

Which names of devices the parser should accept, what the plain name of a device is, and when the
parser gives just that.
-/

namespace DshLmc

namespace TangoUtils

open Search

variable {s p h r t : List Char} {c : Char}

def IsProxyPart (part : List Char) : Prop := part ≠ [] ∧ '/' ∉ part

/-- `[tango://host:port/]` -/
inductive IsProxyFacility : List Char → Prop
  | none : IsProxyFacility []
  | fqdn {host port : List Char} (hhost : IsProxyPart host) (hport : IsProxyPart port) :
      IsProxyFacility (tangoPrefix ++ (host ++ ':' :: port) ++ ['/'])

/-- `[tango://host:port/]domain/family/member` -/
def IsFullProxyName (s : List Char) : Prop :=
  ∃ facility domain family member, IsProxyFacility facility ∧ IsProxyPart domain
    ∧ IsProxyPart family ∧ IsProxyPart member
    ∧ s = facility ++ (domain ++ '/' :: (family ++ '/' :: member))

theorem isFullProxyName_iff : IsFullProxyName s ↔
    ∃ facility path, IsProxyFacility facility ∧ Parts '/' 3 path ∧ s = facility ++ path := by
  constructor
  · rintro ⟨facility, domain, family, member, hfacility, hdomain, hfamily, hmember, rfl⟩
    refine ⟨facility, _, hfacility, ?_, rfl⟩
    rw [parts_append_cons_iff hdomain.2, parts_append_cons_iff hfamily.2, parts_one_iff]
    exact ⟨hdomain.1, hfamily.1, hmember⟩
  · rintro ⟨facility, path, hfacility, hparts, rfl⟩
    obtain ⟨domain, path, rfl, hdomain, hdomain', hparts⟩ := (parts_succ_iff (by omega)).mp hparts
    obtain ⟨family, member, rfl, hfamily, hfamily', hparts⟩ := (parts_succ_iff (by omega)).mp hparts
    exact ⟨facility, domain, family, member, hfacility, ⟨hdomain, hdomain'⟩, ⟨hfamily, hfamily'⟩,
      parts_one_iff.mp hparts, rfl⟩

theorem isFullProxyName_plain_iff (htango : ¬ tangoPrefix <:+: s) :
    IsFullProxyName s ↔ Parts '/' 3 s := by
  rw [isFullProxyName_iff]
  constructor
  · rintro ⟨facility, path, hfacility, hparts, rfl⟩
    cases hfacility with
    | none => exact hparts
    | fqdn hhost hport =>
        apply absurd _ htango
        rw [List.append_assoc, List.append_assoc]
        exact List.infix_append_left
  · intro hparts
    exact ⟨[], s, .none, hparts, rfl⟩

theorem mem_tail_dropLast_iff :
    c ∈ t.tail.dropLast ↔ ∃ u v, t = u ++ c :: v ∧ u ≠ [] ∧ v ≠ [] := by
  constructor
  · intro hmem
    cases t with
    | nil => exact absurd hmem List.not_mem_nil
    | cons x t =>
        have hne : t ≠ [] := by
          rintro rfl
          exact absurd hmem List.not_mem_nil
        obtain ⟨u, v, huv⟩ := List.append_of_mem hmem
        refine ⟨x :: u, v ++ [t.getLast hne], ?_, List.cons_ne_nil _ _, by simp⟩
        have hlast := List.dropLast_append_getLast hne
        rw [List.tail_cons] at huv
        calc x :: t = x :: (t.dropLast ++ [t.getLast hne]) := by rw [hlast]
          _ = x :: u ++ c :: (v ++ [t.getLast hne]) := by simp [huv]
  · rintro ⟨u, v, rfl, hu, hv⟩
    cases u with
    | nil => exact absurd rfl hu
    | cons x u =>
        rw [List.cons_append, List.tail_cons, List.dropLast_append_of_ne_nil (List.cons_ne_nil _ _),
          List.dropLast_cons_of_ne_nil hv]
        simp

theorem hasFacility_fqdn {host port : List Char} (hhost : IsProxyPart host)
    (hport : IsProxyPart port) (t : List Char) :
    HasFacility (tangoPrefix ++ (host ++ ':' :: port) ++ '/' :: t) tangoPrefix
      (host ++ ':' :: port) t :=
  ⟨rfl, rfl, by simp [hhost.2, hport.2], by simp⟩

theorem tangoPrefix_infix_fqdn (host port t : List Char) :
    tangoPrefix <:+: tangoPrefix ++ (host ++ ':' :: port) ++ '/' :: t := by
  rw [List.append_assoc]
  exact List.infix_append_left

theorem isFullProxyName_fqdn_iff (htango : tangoPrefix <:+: s) (hs : HasFacility s p h r) :
    IsFullProxyName s ↔ p = tangoPrefix ∧ ':' ∈ h.tail.dropLast ∧ Parts '/' 3 r := by
  rw [isFullProxyName_iff, mem_tail_dropLast_iff]
  constructor
  · rintro ⟨facility, path, hfacility, hparts, rfl⟩
    cases hfacility with
    | none => exact absurd htango (tangoPrefix_not_within hparts)
    | @fqdn host port hhost hport =>
        have hfqdn := hasFacility_fqdn hhost hport path
        obtain ⟨rfl, rfl, rfl⟩ := hs.unique (List.append_assoc ..) rfl hfqdn.slash
        exact ⟨rfl, ⟨host, port, rfl, hhost.1, hport.1⟩, hparts⟩
  · rintro ⟨rfl, ⟨host, port, rfl, hhost, hport⟩, hparts⟩
    have hslash := hs.slash
    rw [List.mem_append, List.mem_cons, not_or, not_or] at hslash
    refine ⟨_, r, .fqdn ⟨hhost, hslash.1⟩ ⟨hport, hslash.2.2⟩, hparts, ?_⟩
    rw [hs.eq, List.append_assoc _ ['/']]
    rfl

/-- `domain/family/member` -/
def FullProxyName.plain (name : FullProxyName) : List Char :=
  name.domain_name ++ '/' :: (name.family_name ++ '/' :: name.member_name)

def FullProxyName.full (name : FullProxyName) : List Char :=
  if name.facility_name = [] then name.plain else name.facility_name ++ '/' :: name.plain

theorem splitProxyName_of_lt (facility_name : List Char) (ht : t.count '/' < 2) :
    splitProxyName facility_name t = .error .failed := by
  rw [splitProxyName]
  cases hfind : findText ['/'] t with
  | none => rfl
  | some pos =>
      have hmem : '/' ∈ t := by
        by_contra hnot
        rw [find_singleton_eq_none_iff.mpr hnot] at hfind
        cases hfind
      obtain ⟨u, v, rfl, hu⟩ := List.eq_append_cons_of_mem hmem
      rw [find_append_cons hu] at hfind
      obtain rfl := Option.some.inj hfind
      have hv : '/' ∉ v := by
        rw [List.count_append, List.count_cons_self] at ht
        exact List.count_eq_zero.mp (by omega)
      have hfamily : findFrom ['/'] (u ++ '/' :: v) (u.length + 1) = none := by
        rw [findFrom, ← List.drop_drop, List.drop_left, List.drop_one, List.tail_cons,
          find_singleton_eq_none_iff.mpr hv]
        rfl
      simp only [substr_append_left, hfamily]
      rfl

theorem splitProxyName_of_le (facility_name : List Char) (ht : 2 ≤ t.count '/') : ∃ name,
    splitProxyName facility_name t = .ok name ∧ name.facility_name = facility_name
      ∧ name.plain = t := by
  have hmem : '/' ∈ t := List.count_pos_iff.mp (by omega)
  obtain ⟨u, rest, rfl, hu⟩ := List.eq_append_cons_of_mem hmem
  have hrest : '/' ∈ rest := by
    rw [List.count_append, List.count_eq_zero.mpr hu, List.count_cons_self] at ht
    exact List.count_pos_iff.mp (by omega)
  obtain ⟨v, w, rfl, hv⟩ := List.eq_append_cons_of_mem hrest
  have hfamily : findFrom ['/'] (u ++ '/' :: (v ++ '/' :: w)) (u.length + 1)
      = some (u ++ '/' :: v).length := by
    rw [findFrom, ← List.drop_drop, List.drop_left, List.drop_one, List.tail_cons,
      find_append_cons hv, Option.map_some, List.length_append, List.length_cons]
    exact congrArg some (by omega)
  have happend : u ++ '/' :: (v ++ '/' :: w) = (u ++ '/' :: v) ++ '/' :: w := by
    rw [List.append_assoc, List.cons_append]
  have hmember : findFrom ['/'] (u ++ '/' :: (v ++ '/' :: w)) (u ++ '/' :: v).length
      = some (u ++ '/' :: v).length := by
    have hfirst : findText ['/'] ('/' :: w) = some 0 := find_append_cons (u := []) List.not_mem_nil
    rw [happend, findFrom_append, hfirst, Option.map_some, Nat.zero_add]
  have hsubstr : substr (u ++ '/' :: (v ++ '/' :: w)) ((u ++ '/' :: v).length + 1) none = .ok w := by
    rw [happend, substr_after]
  refine ⟨⟨facility_name, u, v, w⟩, ?_, rfl, rfl⟩
  rw [splitProxyName, find_append_cons hu]
  simp only [substr_append_left, hfamily, substr_between, hmember, hsubstr]
  rfl

theorem parseFullProxyName_plain (htango : ¬ tangoPrefix <:+: s) :
    parseFullProxyName s = splitProxyName [] s := by
  rw [parseFullProxyName, find_eq_none_iff.mpr htango]

theorem parseFullProxyName_fqdn (htango : tangoPrefix <:+: s) (hs : HasFacility s p h r) :
    parseFullProxyName s = splitProxyName (p ++ h) r := by
  have hrest : substr s ((p ++ h).length + 1) none = .ok r := by
    rw [hs.eq, substr_after]
  obtain ⟨n, hn⟩ := Option.isSome_iff_exists.mp (isSome_find_iff.mpr htango)
  rw [parseFullProxyName, hn, hs.facilityEnd]
  simp only [hs.findFrom, hs.substr, sizeSub_succ_self, hrest]
  rfl

theorem parseFullProxyName_of_not_hasFacility (htango : tangoPrefix <:+: s)
    (hs : ∀ p h r, ¬ HasFacility s p h r) : parseFullProxyName s = .error .failed := by
  obtain ⟨n, hn⟩ := Option.isSome_iff_exists.mp (isSome_find_iff.mpr htango)
  rw [parseFullProxyName, hn]
  cases hend : facilityEnd s with
  | none => rfl
  | some pos =>
      obtain ⟨p, h, r, hfacility⟩ := exists_hasFacility hend
      exact absurd hfacility (hs p h r)

theorem getPlainProxyName_of_lt (htango : ¬ tangoPrefix <:+: t) (ht : t.count '/' < 2) :
    getPlainProxyName t = .error .failed := by
  rw [getPlainProxyName, parseFullProxyName_plain htango, splitProxyName_of_lt [] ht]
  rfl

theorem getPlainProxyName_of_le (htango : ¬ tangoPrefix <:+: t) (ht : 2 ≤ t.count '/') :
    getPlainProxyName t = .ok t := by
  obtain ⟨name, hname, -, hplain⟩ := splitProxyName_of_le [] ht
  rw [getPlainProxyName, parseFullProxyName_plain htango, hname]
  exact congrArg Except.ok hplain

/-- The parser accepts the name if and only if it is of the grammar, its results make up the name
again, the plain name is that of what stands behind `tango://host:port/` and its own plain name, and
nothing is cut out from beyond the end. -/
structure ProxyNameLaws (s : List Char) : Prop where
  accepts : (∃ name, parseFullProxyName s = .ok name) ↔ IsFullProxyName s
  rejoins : ∀ name, parseFullProxyName s = .ok name → name.full = s
  same : ∀ host port t, IsProxyPart host → IsProxyPart port →
    s = tangoPrefix ++ (host ++ ':' :: port) ++ '/' :: t → getPlainProxyName s = getPlainProxyName t
  idempotent : ∀ plain, getPlainProxyName s = .ok plain → getPlainProxyName plain = .ok plain
  in_range : parseFullProxyName s ≠ .error .out_of_range

/-- A name with two slashes or more, behind the facility where there is one, has three parts that are
not empty, and the facility is `tango://` and a `host:port`. -/
structure WellFormedProxyName (s : List Char) : Prop where
  plain : ¬ tangoPrefix <:+: s → 2 ≤ s.count '/' → Parts '/' 3 s
  fqdn : tangoPrefix <:+: s → ∀ p h r, HasFacility s p h r → 2 ≤ r.count '/' →
    p = tangoPrefix ∧ ':' ∈ h.tail.dropLast ∧ Parts '/' 3 r

/-- A name that is not of the grammar and is rejected. Its plain form is rejected too. -/
theorem proxyNameLaws_of_failed (hs : parseFullProxyName s = .error .failed)
    (hnot : ¬ IsFullProxyName s)
    (hsame : ∀ p h r, HasFacility s p h r → tangoPrefix <:+: s →
      getPlainProxyName r = .error .failed) : ProxyNameLaws s := by
  have hplain : getPlainProxyName s = .error .failed := by
    rw [getPlainProxyName, hs]
    rfl
  refine ⟨iff_of_false ?_ hnot, ?_, ?_, ?_, ?_⟩
  · rintro ⟨name, hname⟩
    rw [hs] at hname
    cases hname
  · intro name hname
    rw [hs] at hname
    cases hname
  · rintro host port t hhost hport rfl
    rw [hplain, hsame _ _ t (hasFacility_fqdn hhost hport t) (tangoPrefix_infix_fqdn host port t)]
  · intro plain hok
    rw [hplain] at hok
    cases hok
  · intro herror
    rw [hs] at herror
    cases herror

/-- A name whose plain form `t` is not a full name again. -/
theorem proxyNameLaws_of_ok (name : FullProxyName) (hname : parseFullProxyName s = .ok name)
    (hfull : name.full = s) (hs : IsFullProxyName s) (ht : getPlainProxyName name.plain = .ok name.plain)
    (hsame : ∀ p h r, HasFacility s p h r → tangoPrefix <:+: s → r = name.plain) :
    ProxyNameLaws s := by
  have hplain : getPlainProxyName s = .ok name.plain := by
    rw [getPlainProxyName, hname]
    rfl
  refine ⟨iff_of_true ⟨name, hname⟩ hs, ?_, ?_, ?_, ?_⟩
  · intro name' hname'
    rw [hname] at hname'
    rwa [← Except.ok.inj hname']
  · rintro host port t hhost hport rfl
    rw [hplain, hsame _ _ t (hasFacility_fqdn hhost hport t) (tangoPrefix_infix_fqdn host port t), ht]
  · intro plain hok
    rw [hplain] at hok
    rw [← Except.ok.inj hok, ht]
  · intro herror
    rw [hname] at herror
    cases herror

theorem proxyNameLaws_plain_iff (htango : ¬ tangoPrefix <:+: s) :
    ProxyNameLaws s ↔ (2 ≤ s.count '/' → Parts '/' 3 s) := by
  have hiff := isFullProxyName_plain_iff htango
  constructor
  · intro hlaws hcount
    obtain ⟨name, hname, -, -⟩ := splitProxyName_of_le [] hcount
    apply hiff.mp
    apply hlaws.accepts.mp
    exact ⟨name, by rw [parseFullProxyName_plain htango, hname]⟩
  · intro hparts
    by_cases hcount : 2 ≤ s.count '/'
    · obtain ⟨name, hname, hfacility, hplain⟩ := splitProxyName_of_le [] hcount
      apply proxyNameLaws_of_ok name
      · rw [parseFullProxyName_plain htango, hname]
      · rw [FullProxyName.full, if_pos hfacility, hplain]
      · exact hiff.mpr (hparts hcount)
      · rw [hplain, getPlainProxyName_of_le htango hcount]
      · exact fun _ _ _ _ htango' => absurd htango' htango
    · apply proxyNameLaws_of_failed
      · rw [parseFullProxyName_plain htango, splitProxyName_of_lt [] (by omega)]
      · rw [hiff]
        intro hparts
        have hcount' := hparts.1
        omega
      · exact fun _ _ _ _ htango' => absurd htango' htango

theorem proxyNameLaws_fqdn_iff (htango : tangoPrefix <:+: s) (hs : HasFacility s p h r) :
    ProxyNameLaws s ↔
      (2 ≤ r.count '/' → p = tangoPrefix ∧ ':' ∈ h.tail.dropLast ∧ Parts '/' 3 r) := by
  have hiff := isFullProxyName_fqdn_iff htango hs
  constructor
  · intro hlaws hcount
    obtain ⟨name, hname, -, -⟩ := splitProxyName_of_le (p ++ h) hcount
    apply hiff.mp
    apply hlaws.accepts.mp
    exact ⟨name, by rw [parseFullProxyName_fqdn htango hs, hname]⟩
  · intro hparts
    have hunique : ∀ p' h' r', HasFacility s p' h' r' → r' = r := fun p' h' r' hs' =>
      (hs'.unique hs.eq hs.length hs.slash).2.2
    by_cases hcount : 2 ≤ r.count '/'
    · obtain ⟨name, hname, hfacility, hplain⟩ := splitProxyName_of_le (p ++ h) hcount
      have hne : p ++ h ≠ [] := List.append_ne_nil_of_right_ne_nil _ (List.ne_nil_of_mem hs.colon)
      apply proxyNameLaws_of_ok name
      · rw [parseFullProxyName_fqdn htango hs, hname]
      · rw [FullProxyName.full, hfacility, if_neg hne, hplain, ← hs.eq]
      · exact hiff.mpr (hparts hcount)
      · rw [hplain, getPlainProxyName_of_le (tangoPrefix_not_within (hparts hcount).2.2) hcount]
      · intro p' h' r' hs' _
        rw [hplain, hunique p' h' r' hs']
    · apply proxyNameLaws_of_failed
      · rw [parseFullProxyName_fqdn htango hs, splitProxyName_of_lt _ (by omega)]
      · rw [hiff]
        rintro ⟨-, -, hparts⟩
        have hcount' := hparts.1
        omega
      · intro p' h' r' hs' _
        rw [hunique p' h' r' hs']
        apply getPlainProxyName_of_lt _ (by omega)
        intro htango'
        have hle : tangoPrefix.count '/' ≤ r.count '/' := htango'.sublist.count_le '/'
        exact hcount hle

theorem proxyNameLaws_iff (s : List Char) : ProxyNameLaws s ↔ WellFormedProxyName s := by
  by_cases htango : tangoPrefix <:+: s
  · by_cases hfacility : ∃ p h r, HasFacility s p h r
    · obtain ⟨p, h, r, hs⟩ := hfacility
      rw [proxyNameLaws_fqdn_iff htango hs]
      constructor
      · intro hparts
        refine ⟨fun hnot => absurd htango hnot, ?_⟩
        intro _ p' h' r' hs'
        obtain ⟨rfl, rfl, rfl⟩ := hs'.unique hs.eq hs.length hs.slash
        exact hparts
      · intro hwf
        exact hwf.fqdn htango p h r hs
    · have hnone : ∀ p h r, ¬ HasFacility s p h r := by
        intro p h r hs
        exact hfacility ⟨p, h, r, hs⟩
      refine iff_of_true ?_ ⟨fun hnot => absurd htango hnot, ?_⟩
      · apply proxyNameLaws_of_failed (parseFullProxyName_of_not_hasFacility htango hnone)
        · rw [isFullProxyName_iff]
          rintro ⟨facility, path, hpre, hparts, rfl⟩
          cases hpre with
          | none => exact tangoPrefix_not_within hparts htango
          | fqdn hhost hport =>
              have hs := hasFacility_fqdn hhost hport path
              refine hnone _ _ path ⟨?_, hs.length, hs.slash, hs.colon⟩
              rw [List.append_assoc _ ['/'], List.singleton_append]
        · exact fun p h r hs => absurd hs (hnone p h r)
      · exact fun _ p h r hs => absurd hs (hnone p h r)
  · rw [proxyNameLaws_plain_iff htango]
    constructor
    · intro hparts
      exact ⟨fun _ => hparts, fun htango' => absurd htango' htango⟩
    · intro hwf
      exact hwf.plain htango

theorem not_proxyNameLaws_sample : ¬ ProxyNameLaws "a/b/c/d".toList := by
  intro hlaws
  have hok : parseFullProxyName "a/b/c/d".toList
      = .ok ⟨[], "a".toList, "b".toList, "c/d".toList⟩ := rfl
  have htango : ¬ tangoPrefix <:+: "a/b/c/d".toList := by
    rw [← find_eq_none_iff]
    rfl
  have hparts := (isFullProxyName_plain_iff htango).mp (hlaws.accepts.mp ⟨_, hok⟩)
  cases hparts.1

end TangoUtils

end DshLmc
