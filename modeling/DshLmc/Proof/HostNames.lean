import DshLmc.Archiving.HdbNames
import DshLmc.Library.Letters
import DshLmc.Library.Outcome
import Mathlib.Data.List.TakeWhile

/-!
# Names with a host

A name that says its host, its port and the path of an attribute is compared without an error. Once
its host has a domain, or is one that the name server does not know, it stays as it is, whatever the
device remembers of other hosts.
-/

namespace DshLmc

open Letters Search TangoUtils

/-- What is compared of a name. -/
def withoutDomain (str : List Char) : List Char :=
  ((remove_domain str).toOption.getD str).map Char.toLower

theorem length_tangoPrefix : tangoPrefix.length = 8 := rfl

/-- `tango://host:port/path` -/
structure FullName where
  host : List Char
  port : List Char
  path : List Char
  host_slash : '/' ∉ host
  host_colon : ':' ∉ host
  port_slash : '/' ∉ port

namespace FullName

variable (name : FullName)

def facility : List Char := name.host ++ ':' :: name.port

def text : List Char := tangoPrefix ++ (name.facility ++ '/' :: name.path)

theorem slash_not_mem_facility : '/' ∉ name.facility := by
  simp [facility, name.host_slash, name.port_slash]

theorem find_tangoPrefix_text : findText tangoPrefix name.text = some 0 := find_prefix

theorem slash_mem_text : '/' ∈ name.text := by simp [text]

theorem find_colon_text : findFrom [':'] name.text 8 = some (name.host.length + 8) := by
  have hfind : findFrom [':'] name.text 8
      = (findText [':'] (name.facility ++ '/' :: name.path)).map (· + tangoPrefix.length) :=
    findFrom_append
  rw [hfind, facility, List.append_assoc, List.cons_append, find_append_cons name.host_colon]
  rfl

def withHost (host : List Char) (hslash : '/' ∉ host) (hcolon : ':' ∉ host) : FullName :=
  { name with host := host, host_slash := hslash, host_colon := hcolon }

def undotted : FullName :=
  name.withHost (name.host.takeWhile (· ≠ '.'))
    (fun h => name.host_slash (List.takeWhile_subset _ h))
    (fun h => name.host_colon (List.takeWhile_subset _ h))

theorem takeWhile_dot {u v : List Char} (hu : '.' ∉ u) :
    (u ++ '.' :: v).takeWhile (· ≠ '.') = u := by
  rw [List.takeWhile_append_of_pos fun c hc => by simpa using fun h : c = '.' => hu (h ▸ hc)]
  simp

theorem takeWhile_of_not_mem_dot {u : List Char} (hu : '.' ∉ u) : u.takeWhile (· ≠ '.') = u :=
  List.takeWhile_eq_self_iff.mpr fun c hc => by simpa using fun h : c = '.' => hu (h ▸ hc)

theorem remove_domain_of_dot {name : FullName} (hdot : '.' ∈ name.host) :
    remove_domain name.text = .ok name.undotted.text := by
  obtain ⟨u, v, hhost, hu⟩ := List.eq_append_cons_of_mem hdot
  have hprefix : '.' ∉ tangoPrefix ++ u := by
    rw [List.mem_append, not_or]
    exact ⟨by decide, hu⟩
  have hdots : name.text = tangoPrefix ++ u ++ '.' :: (v ++ ':' :: name.port ++ '/' :: name.path) := by
    simp [text, facility, hhost]
  have hcolons : name.text = tangoPrefix ++ name.host ++ ':' :: (name.port ++ '/' :: name.path) := by
    simp [text, facility]
  have hend1 : findText ['.'] name.text = some (tangoPrefix ++ u).length := by
    rw [hdots]
    exact find_append_cons hprefix
  have hlt : ¬ name.host.length + 8 < (tangoPrefix ++ u).length := by
    rw [hhost, List.length_append, List.length_append, length_tangoPrefix, List.length_cons]
    omega
  have htake : name.text.take (tangoPrefix ++ u).length = tangoPrefix ++ u := by
    rw [hdots]
    exact List.take_left
  have hdrop : name.text.drop (name.host.length + 8) = ':' :: (name.port ++ '/' :: name.path) := by
    have hlength : name.host.length + 8 = (tangoPrefix ++ name.host).length := by
      rw [List.length_append, length_tangoPrefix, Nat.add_comm]
    rw [hlength, hcolons]
    exact List.drop_left
  have hundotted : name.undotted.text = tangoPrefix ++ u ++ ':' :: (name.port ++ '/' :: name.path) := by
    have htext : name.undotted.text = tangoPrefix
        ++ ((name.host.takeWhile (· ≠ '.') ++ ':' :: name.port) ++ '/' :: name.path) := rfl
    rw [htext, hhost, takeWhile_dot hu]
    simp
  unfold remove_domain
  rw [find_tangoPrefix_text, Option.isSome_some, if_pos rfl, find_colon_text, hend1, hundotted]
  simp only [if_neg hlt, htake, hdrop]

/-- A dot behind the host is not one of a domain. -/
theorem remove_domain_of_not_dot {name : FullName} (hdot : '.' ∉ name.host) :
    remove_domain name.text = .ok name.undotted.text := by
  have hcolons : name.text = tangoPrefix ++ name.host ++ [':'] ++ (name.port ++ '/' :: name.path) := by
    simp [text, facility]
  have hprefix : '.' ∉ tangoPrefix ++ name.host ++ [':'] := by
    simp only [List.mem_append, not_or]
    exact ⟨⟨by decide, hdot⟩, by decide⟩
  have hundotted : name.undotted.text = name.text := by
    have htext : name.undotted.text = tangoPrefix
        ++ ((name.host.takeWhile (· ≠ '.') ++ ':' :: name.port) ++ '/' :: name.path) := rfl
    rw [htext, takeWhile_of_not_mem_dot hdot]
    rfl
  unfold remove_domain
  rw [find_tangoPrefix_text, Option.isSome_some, if_pos rfl, find_colon_text, hundotted, hcolons,
    find_append_of_not_mem hprefix, ← hcolons]
  cases hfind : findText ['.'] (name.port ++ '/' :: name.path) with
  | none => rfl
  | some end1 =>
      have hlt : name.host.length + 8 < end1 + (tangoPrefix ++ name.host ++ [':']).length := by
        rw [List.length_append, List.length_append, length_tangoPrefix, List.length_singleton]
        omega
      simp only [Option.map_some, if_pos hlt]

theorem remove_domain_text : remove_domain name.text = .ok name.undotted.text := by
  by_cases hdot : '.' ∈ name.host
  · exact remove_domain_of_dot hdot
  · exact remove_domain_of_not_dot hdot

def lower : FullName where
  host := name.host.map Char.toLower
  port := name.port.map Char.toLower
  path := name.path.map Char.toLower
  host_slash := fun h => name.host_slash ((mem_map_toLower_iff rfl).mp h)
  host_colon := fun h => name.host_colon ((mem_map_toLower_iff rfl).mp h)
  port_slash := fun h => name.port_slash ((mem_map_toLower_iff rfl).mp h)

theorem map_toLower_tangoPrefix : tangoPrefix.map Char.toLower = tangoPrefix := rfl

theorem map_toLower_text : name.text.map Char.toLower = name.lower.text := by
  simp only [text, facility, lower, List.map_append, List.map_cons, map_toLower_tangoPrefix]
  rfl

theorem withoutDomain_text : withoutDomain name.text = name.undotted.lower.text := by
  rw [withoutDomain, remove_domain_text, ← map_toLower_text]
  rfl

theorem compare_without_domain_text (name name' : FullName) :
    compare_without_domain name.text name'.text
      = .ok (withoutDomain name.text == withoutDomain name'.text) := by
  unfold compare_without_domain withoutDomain
  rw [remove_domain_text, remove_domain_text]
  rfl

theorem text_congr {name name' : FullName} (hhost : name.host = name'.host)
    (hport : name.port = name'.port) (hpath : name.path = name'.path) : name.text = name'.text := by
  simp only [text, facility, hhost, hport, hpath]

/-- Without the domain a name does not depend on case. -/
theorem withoutDomain_lower : withoutDomain name.lower.text
    = withoutDomain name.text := by
  have hfold : (Char.toLower ∘ Char.toLower) = Char.toLower := funext toLower_toLower
  have hdot : ((fun x => decide (x ≠ '.')) ∘ Char.toLower) = fun x => decide (x ≠ '.') := by
    funext x
    have hiff : '.' ∈ [x].map Char.toLower ↔ '.' ∈ [x] := mem_map_toLower_iff rfl
    simp only [List.map_singleton, List.mem_singleton] at hiff
    simp only [Function.comp_apply, ne_eq, eq_comm, hiff]
  rw [withoutDomain_text, withoutDomain_text]
  apply text_congr
  · change ((name.host.map Char.toLower).takeWhile _).map Char.toLower
      = (name.host.takeWhile _).map Char.toLower
    rw [List.takeWhile_map, List.map_map, hfold, hdot]
  · change (name.port.map Char.toLower).map Char.toLower = name.port.map Char.toLower
    rw [List.map_map, hfold]
  · change (name.path.map Char.toLower).map Char.toLower = name.path.map Char.toLower
    rw [List.map_map, hfold]

theorem get_only_signal_name_text : HdbConfig.get_only_signal_name name.text = name.path := by
  have hslash : findFrom ['/'] name.text 8 = some (name.facility.length + 8) := by
    have hfind : findFrom ['/'] name.text 8
        = (findText ['/'] (name.facility ++ '/' :: name.path)).map (· + tangoPrefix.length) :=
      findFrom_append
    rw [hfind, find_append_cons name.slash_not_mem_facility]
    rfl
  unfold HdbConfig.get_only_signal_name
  rw [find_tangoPrefix_text]
  simp only [Nat.zero_add, hslash]
  have hwhole : name.text = tangoPrefix ++ name.facility ++ ['/'] ++ name.path := by simp [text]
  have hlength : name.facility.length + 8 + 1 = (tangoPrefix ++ name.facility ++ ['/']).length := by
    rw [List.length_append, List.length_append, length_tangoPrefix, List.length_singleton]
    omega
  rw [hlength, hwhole]
  exact List.drop_left

theorem get_only_tango_host_text (c : HdbConfig) : c.get_only_tango_host name.text = name.facility := by
  unfold HdbConfig.get_only_tango_host
  rw [find_tangoPrefix_text]
  have hdrop : name.text.drop (0 + 8) = name.facility ++ '/' :: name.path :=
    List.drop_left' length_tangoPrefix
  simp only [hdrop]
  rw [List.takeWhile_append_of_pos fun x hx => by
    simpa using fun h : x = '/' => name.slash_not_mem_facility (h ▸ hx)]
  simp

theorem lower_facility : name.lower.facility = name.facility.map Char.toLower := by
  simp only [facility, lower, List.map_append, List.map_cons]
  rfl

theorem semicolon_text (hsemi : ';' ∉ name.text) : ';' ∉ name.facility ∧ ';' ∉ name.path := by
  simp only [text, List.mem_append, List.mem_cons, not_or] at hsemi
  exact ⟨hsemi.2.1, hsemi.2.2.2⟩

def withPath (path : List Char) : FullName := { name with path := path }

theorem semicolon_withPath (hsemi : ';' ∉ name.facility) {path : List Char} (hpath : ';' ∉ path) :
    ';' ∉ (name.withPath path).text := by
  have htango : ';' ∉ tangoPrefix := by decide
  have hslash : ';' ≠ '/' := by decide
  simp only [text, List.mem_append, List.mem_cons, not_or]
  exact ⟨htango, hsemi, hslash, hpath⟩

end FullName

namespace HdbConfig

variable {c : HdbConfig} {domain_map : DomainMap}

/-- The database has a host and a port. The name server does not see the case of a host, and a host
that it knows has one name, with a domain. No name has a semicolon. -/
structure Resolves (c : HdbConfig) : Prop where
  tango_host : ∃ name : FullName, c.TANGO_HOST = some name.facility ∧ ';' ∉ name.facility
  ignores_case : ∀ host, c.getaddrinfo (host.map Char.toLower) = c.getaddrinfo host
  canonname : ∀ host result, c.getaddrinfo host = some result → ∃ canonname,
    result = [some canonname] ∧ '.' ∈ canonname ∧ '/' ∉ canonname ∧ ':' ∉ canonname ∧ ';' ∉ canonname

/-- There is no domain to add. -/
def Settled (c : HdbConfig) (name : FullName) : Prop :=
  '.' ∈ name.facility ∨ c.getaddrinfo name.host = none

/-- What is remembered is of hosts that the name server knows, and has a domain. -/
def Remembers (c : HdbConfig) (domain_map : DomainMap) : Prop :=
  ∀ e ∈ domain_map, (c.getaddrinfo e.1).isSome = true
    ∧ ∃ name : FullName, e.2 = name.facility ∧ '.' ∈ name.facility ∧ ';' ∉ name.facility

theorem remembers_nil : c.Remembers [] := fun _ h => absurd h List.not_mem_nil

theorem Remembers.insert (h : c.Remembers domain_map) {th : List Char} {name : FullName}
    (hth : (c.getaddrinfo th).isSome = true) (hdot : '.' ∈ name.facility)
    (hsemi : ';' ∉ name.facility) : c.Remembers (domain_map.insert th name.facility) := by
  unfold DomainMap.insert
  split_ifs
  · exact h
  · intro e he
    rcases List.mem_append.mp he with hmem | hmem
    · exact h e hmem
    · obtain rfl := List.mem_singleton.mp hmem
      exact ⟨hth, name, rfl, hdot, hsemi⟩

theorem Remembers.lookup (h : c.Remembers domain_map) {th with_domain : List Char}
    (hfound : domain_map.lookup th = some with_domain) : (c.getaddrinfo th).isSome = true
      ∧ ∃ name : FullName, with_domain = name.facility ∧ '.' ∈ name.facility ∧ ';' ∉ name.facility := by
  obtain ⟨l₁, l₂, hl, -⟩ := List.lookup_eq_some_iff.mp hfound
  exact h (th, with_domain) (by rw [hl]; simp)

theorem run_add_domain {name : FullName} (hdot : '.' ∉ name.facility) :
    (c.add_domain name.facility).run.run domain_map = (match domain_map.lookup name.host with
      | some with_domain => pure with_domain
      | none =>
          match c.getaddrinfo name.host with
          | none => pure name.facility
          | some result => addResults name.host (some (':' :: name.port)) result name.facility
      : NamesM (List Char)).run.run domain_map := by
  have htango : ¬ (findText tangoPrefix name.facility).isSome = true := by
    rw [isSome_find_iff]
    intro hwithin
    exact name.slash_not_mem_facility (hwithin.subset (by decide))
  have hcolon : findFrom [':'] name.facility 0 = some name.host.length := by
    rw [findFrom, List.drop_zero, FullName.facility, find_append_cons name.host_colon]
    rfl
  have htake : name.facility.take name.host.length = name.host := List.take_left
  have hdrop : name.facility.drop name.host.length = ':' :: name.port := List.drop_left
  unfold add_domain
  simp only [if_neg hdot, if_neg htango, hcolon, Option.getD_some, List.drop_zero, htake,
    Option.map_some, hdrop]
  rfl

theorem add_domain_settled (hm : c.Remembers domain_map) {name : FullName} (hname : c.Settled name) :
    (c.add_domain name.facility).run.run domain_map = (.ok name.facility, domain_map) := by
  by_cases hdot : '.' ∈ name.facility
  · unfold add_domain
    rw [if_pos hdot]
    rfl
  · have hunknown := hname.resolve_left hdot
    have hnone : domain_map.lookup name.host = none := by
      by_contra hsome
      obtain ⟨with_domain, hfound⟩ := Option.ne_none_iff_exists'.mp hsome
      have hknown := (hm.lookup hfound).1
      rw [hunknown] at hknown
      exact absurd hknown (by decide)
    rw [run_add_domain hdot, hnone, hunknown]
    rfl

theorem add_domain_facility (h : c.Resolves) (hm : c.Remembers domain_map) (name : FullName)
    (hsemi : ';' ∉ name.facility) : ∃ (name' : FullName) (domain_map' : DomainMap),
      (c.add_domain name.facility).run.run domain_map = (.ok name'.facility, domain_map')
        ∧ c.Remembers domain_map' ∧ c.Settled name' ∧ ';' ∉ name'.facility := by
  by_cases hdot : '.' ∈ name.facility
  · exact ⟨name, domain_map, add_domain_settled hm (.inl hdot), hm, .inl hdot, hsemi⟩
  rw [run_add_domain hdot]
  cases hfound : domain_map.lookup name.host with
  | some with_domain =>
      obtain ⟨-, name', rfl, hdot', hsemi'⟩ := hm.lookup hfound
      exact ⟨name', domain_map, rfl, hm, .inl hdot', hsemi'⟩
  | none =>
      cases hanswer : c.getaddrinfo name.host with
      | none => exact ⟨name, domain_map, rfl, hm, .inr hanswer, hsemi⟩
      | some result =>
          obtain ⟨canonname, rfl, hdot', hslash, hcolon, hsemi'⟩ := h.canonname _ _ hanswer
          have hport : ';' ∉ ':' :: name.port := fun hmem => hsemi (List.mem_append_right _ hmem)
          have hname' : ';' ∉ (name.withHost canonname hslash hcolon).facility :=
            fun hmem => (List.mem_append.mp hmem).elim hsemi' hport
          have hdotted : '.' ∈ (name.withHost canonname hslash hcolon).facility :=
            List.mem_append_left _ hdot'
          refine ⟨name.withHost canonname hslash hcolon, _, rfl, ?_, .inl hdotted, hname'⟩
          exact hm.insert (by rw [hanswer]; rfl) hdotted hname'

theorem Settled.lower (h : c.Resolves) {name : FullName} (hname : c.Settled name) :
    c.Settled name.lower := by
  refine hname.imp (fun hdot => ?_) fun hunknown => ?_
  · rw [name.lower_facility]
    exact (mem_map_toLower_iff rfl).mpr hdot
  · change c.getaddrinfo (name.host.map Char.toLower) = none
    rw [h.ignores_case, hunknown]

theorem fix_tango_host_text (name : FullName) :
    c.fix_tango_host name.text = (do
      let facility ← c.add_domain name.lower.facility
      return tangoPrefix ++ facility ++ '/' :: name.lower.path) := by
  unfold fix_tango_host
  simp only [name.map_toLower_text, name.lower.find_tangoPrefix_text,
    name.lower.get_only_tango_host_text, name.lower.get_only_signal_name_text]

theorem text_withPath (name : FullName) (path : List Char) :
    (name.withPath path).text = tangoPrefix ++ name.facility ++ '/' :: path := by
  rw [FullName.text, List.append_assoc]
  rfl

/-- A name without a domain to add gets small letters. -/
theorem fix_tango_host_settled (h : c.Resolves) (hm : c.Remembers domain_map) {name : FullName}
    (hname : c.Settled name) :
    (c.fix_tango_host name.text).run.run domain_map = (.ok name.lower.text, domain_map) := by
  rw [fix_tango_host_text, run_bind_ok (add_domain_settled hm (hname.lower h))]
  have htext : tangoPrefix ++ name.lower.facility ++ '/' :: name.lower.path = name.lower.text :=
    List.append_assoc _ _ _
  rw [htext]
  rfl

/-- A name as the device keeps it. -/
def Fixed (c : HdbConfig) (signame : List Char) : Prop :=
  ∃ name : FullName, signame = name.text ∧ c.Settled name ∧ ';' ∉ name.text

/-- A name as it may be given: with its host and port, or with no host at all. -/
def Given (signame : List Char) : Prop :=
  ';' ∉ signame ∧ ((findText tangoPrefix (signame.map Char.toLower)).isSome = true →
    ∃ name : FullName, signame.map Char.toLower = name.text)

/-- A name that is given becomes one that the device keeps. -/
theorem fix_tango_host_given (h : c.Resolves) (hm : c.Remembers domain_map) {signame : List Char}
    (hgiven : Given signame) : ∃ (fixed : List Char) (domain_map' : DomainMap),
      (c.fix_tango_host signame).run.run domain_map = (.ok fixed, domain_map')
        ∧ c.Remembers domain_map' ∧ c.Fixed fixed := by
  obtain ⟨hsemi, hhost⟩ := hgiven
  have hlower : ';' ∉ signame.map Char.toLower := fun hmem => hsemi ((mem_map_toLower_iff rfl).mp hmem)
  cases hfind : findText tangoPrefix (signame.map Char.toLower) with
  | none =>
      obtain ⟨host, hTANGO_HOST, hhostsemi⟩ := h.tango_host
      obtain ⟨host', domain_map', hrun, hm', hsettled, hsemi'⟩ :=
        add_domain_facility h hm host hhostsemi
      refine ⟨_, domain_map', ?_, hm', host'.withPath (signame.map Char.toLower), rfl, hsettled,
        host'.semicolon_withPath hsemi' hlower⟩
      unfold fix_tango_host
      simp only [hfind, hTANGO_HOST]
      rw [run_bind_ok hrun, text_withPath]
      rfl
  | some start =>
      obtain ⟨name, hname⟩ := hhost (by rw [hfind]; rfl)
      have hsame : c.fix_tango_host signame = c.fix_tango_host name.text := by
        have hagain : (signame.map Char.toLower).map Char.toLower = signame.map Char.toLower := by
          rw [List.map_map, show (Char.toLower ∘ Char.toLower) = Char.toLower from funext toLower_toLower]
        unfold fix_tango_host
        rw [← hname, hagain]
      have hsemi' : ';' ∉ name.lower.text := by
        rw [← name.map_toLower_text, mem_map_toLower_iff rfl, ← hname]
        exact hlower
      obtain ⟨hfacility, hpath⟩ := name.lower.semicolon_text hsemi'
      obtain ⟨name', domain_map', hrun, hm', hsettled, hsemi''⟩ :=
        add_domain_facility h hm name.lower hfacility
      refine ⟨_, domain_map', ?_, hm', name'.withPath name.lower.path, rfl, hsettled,
        name'.semicolon_withPath hsemi'' hpath⟩
      rw [hsame, fix_tango_host_text, run_bind_ok hrun, text_withPath]
      rfl

end HdbConfig

end DshLmc
