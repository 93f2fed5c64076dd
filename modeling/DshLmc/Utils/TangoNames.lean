import DshLmc.Library.Search

/-!
# Names of devices and attributes

`TangoUtils` takes the full names of devices and attributes apart. A text is a list of characters. A
parser that returns -1 is told from one that throws, and what it wrote before it failed is left out.
-/

namespace DshLmc

namespace TangoUtils

open Search

inductive NameError where
  | failed
  | out_of_range
deriving DecidableEq

/-- `substr`, with its exception. -/
def substr (text : List Char) (pos : Nat) (count : Option Nat) : Except NameError (List Char) :=
  (Search.substr text pos count).elim (.error .out_of_range) .ok

/-- A difference of sizes as a number of characters. Below zero it wraps round to `npos` or a number
that no text has, and there it stands for all that is left. -/
def sizeSub (a b : Nat) : Option Nat := if b ≤ a then some (a - b) else none

def tangoPrefix : List Char := "tango://".toList

def qualitySuffix : List Char := ".quality".toList

/-- The slashes of a device name, and the one behind it. -/
def numSlashes (full_attr_name : List Char) : Nat :=
  if (findText tangoPrefix full_attr_name).isSome then 6 else 3

/-- A step of the loop of the overload with two results, with `ind`, `device_name`, `attr_name`. -/
def scanChar (num_slashes : Nat) (s : Nat × List Char × List Char) (c : Char) :
    Nat × List Char × List Char :=
  let ind := if c = '/' then s.1 + 1 else s.1
  if ind < num_slashes then (ind, s.2.1 ++ [c], s.2.2)
  else if c ≠ '/' then (ind, s.2.1, s.2.2 ++ [c])
  else (ind, s.2)

/-- `ParseFullAttrName` with `device_name` and `attr_name`. It reads `c_str`, up to the first
null character. -/
def parseFullAttrName₂ (full_attr_name : List Char) : Except NameError (List Char × List Char) :=
  let scan := scanChar (numSlashes full_attr_name)
  let names := ((full_attr_name.takeWhile (· ≠ '\x00')).foldl scan (0, [], [])).2
  if names.1 = [] ∨ names.2 = [] then .error .failed else .ok names

/-- The results of the overload with five arguments. -/
structure FullAttrName where
  domain_name : List Char
  device_name : List Char
  attr_name : List Char
  hasQualityTag : Bool
deriving DecidableEq

/-- The check for a `host:port` behind `tango://`: where the `/` after it is. -/
def facilityEnd (full_name : List Char) : Option Nat :=
  match findFrom [':'] full_name 8, findFrom ['/'] full_name 8 with
  | some pos_colon, some pos_slash => if pos_colon < pos_slash then some pos_slash else none
  | _, _ => none

/-- The end of the parser: the quality tag is looked for in the attribute name. -/
def splitQuality (domain_name device_name attr_name : List Char) : Except NameError FullAttrName :=
  match findText qualitySuffix attr_name with
  | some _ =>
      (substr attr_name 0 (sizeSub attr_name.length 8)).map fun attr_name_wquality =>
        ⟨domain_name, device_name, attr_name_wquality, true⟩
  | none => .ok ⟨domain_name, device_name, attr_name, false⟩

/-- `ParseFullAttrName` with `domain_name`, `device_name`, `attr_name` and `hasQualityTag`. -/
def parseFullAttrName₅ (full_attr_name : List Char) : Except NameError FullAttrName :=
  match findText tangoPrefix full_attr_name with
  | some _ =>
      match facilityEnd full_attr_name with
      | none => .error .failed
      | some pos_slash =>
          match findFrom ['/'] full_attr_name pos_slash, findLast '/' full_attr_name with
          | some _, some pos_attr_name => do
              let domain_name ← substr full_attr_name 0 (some pos_slash)
              let device_name ←
                substr full_attr_name (pos_slash + 1) (sizeSub pos_attr_name (pos_slash + 1))
              let attr_name ← substr full_attr_name (pos_attr_name + 1) none
              splitQuality domain_name device_name attr_name
          | _, _ => .error .failed
  | none =>
      match findText [':'] full_attr_name with
      | some _ => .error .failed
      | none =>
          match findText ['/', '/'] full_attr_name with
          | some _ => .error .failed
          | none =>
              match findText ['/'] full_attr_name, findLast '/' full_attr_name with
              | some _, some pos_attr_name => do
                  let device_name ← substr full_attr_name 0 (some pos_attr_name)
                  let attr_name ← substr full_attr_name (pos_attr_name + 1) none
                  splitQuality [] device_name attr_name
              | _, _ => .error .failed

structure FullProxyName where
  facility_name : List Char
  domain_name : List Char
  family_name : List Char
  member_name : List Char
deriving DecidableEq

/-- The part of `ParseFullProxyName` behind the facility. -/
def splitProxyName (facility_name proxy_name : List Char) : Except NameError FullProxyName :=
  match findText ['/'] proxy_name with
  | none => .error .failed
  | some pos_domain_name => do
      let domain_name ← substr proxy_name 0 (some pos_domain_name)
      match findFrom ['/'] proxy_name (pos_domain_name + 1) with
      | none => .error .failed
      | some pos_family_name => do
          let family_name ←
            substr proxy_name (pos_domain_name + 1) (sizeSub pos_family_name (pos_domain_name + 1))
          -- the search for the member starts at the slash that was found last
          match findFrom ['/'] proxy_name pos_family_name with
          | none => .error .failed
          | some _ => do
              let member_name ← substr proxy_name (pos_family_name + 1) none
              .ok ⟨facility_name, domain_name, family_name, member_name⟩

def parseFullProxyName (full_proxy_name : List Char) : Except NameError FullProxyName :=
  match findText tangoPrefix full_proxy_name with
  | some _ =>
      match facilityEnd full_proxy_name with
      | none => .error .failed
      | some pos_slash => do
          let facility_name ← substr full_proxy_name 0 (some pos_slash)
          match findFrom ['/'] full_proxy_name pos_slash with
          | none => .error .failed
          | some pos_proxy_name => do
              let proxy_name ←
                substr full_proxy_name (pos_slash + 1) (sizeSub pos_proxy_name (pos_slash + 1))
              splitProxyName facility_name proxy_name
  | none => splitProxyName [] full_proxy_name

def getPlainProxyName (full_proxy_name : List Char) : Except NameError (List Char) :=
  (parseFullProxyName full_proxy_name).map fun name =>
    name.domain_name ++ '/' :: (name.family_name ++ '/' :: name.member_name)

end TangoUtils

end DshLmc
