import DshLmc.Proof.FormulaNodes
import DshLmc.Utils.ConfigFile

/-!
# Documents in strings

A document is to be parsed to the same collections whether it is given as a string or in a file. The
string is opened as a file, though, so what the parsers see is the file that the document is the name
of. Where there is none they see nothing.
-/

namespace DshLmc

namespace DevConfigParser

def root (doc : Option XmlNode) : Option XmlNode := doc.bind (·.child "DeviceConfiguration")

/-- What the parsers add to their collections for the elements of a root. -/
def contents (lib : ConfigLibraries) (rootNode : XmlNode) :
    List DeviceAttrPtr × List AlarmData × List ArchivedData :=
  (parseAttributes lib [] rootNode, parseAlarmCollection lib [] rootNode,
    parseArchivedAttrCollection lib [] rootNode)

theorem map_contents_eq_iff {lib : ConfigLibraries} {r r' : Option XmlNode} :
    r.map (contents lib) = r'.map (contents lib) ↔
      r.map (parseAttributes lib []) = r'.map (parseAttributes lib []) ∧
      r.map (parseAlarmCollection lib []) = r'.map (parseAlarmCollection lib []) ∧
      r.map (parseArchivedAttrCollection lib []) = r'.map (parseArchivedAttrCollection lib []) := by
  cases r <;> cases r' <;> simp [contents]

section ParseRoot

variable {docs : Documents} {α : Type} {parseCollection : List α → XmlNode → List α}
  {input input' : List Char} {fromFile fromFile' : Bool}

theorem parseRoot_eq (collection : List α) :
    parseRoot docs parseCollection collection input fromFile =
      (root (read docs input fromFile)).elim (-1, collection)
        fun rootNode => (0, parseCollection collection rootNode) := by
  unfold parseRoot root
  cases (read docs input fromFile).bind (·.child "DeviceConfiguration") <;> rfl

/-- Two documents are parsed alike just when they have no root, or roots with the same contents. -/
theorem parseRoot_eq_iff
    (happend : ∀ collection rootNode,
      parseCollection collection rootNode = collection ++ parseCollection [] rootNode) :
    (∀ collection, parseRoot docs parseCollection collection input fromFile =
      parseRoot docs parseCollection collection input' fromFile') ↔
      (root (read docs input fromFile)).map (parseCollection []) =
        (root (read docs input' fromFile')).map (parseCollection []) := by
  simp only [parseRoot_eq]
  cases root (read docs input fromFile) with
  | none => cases root (read docs input' fromFile') <;> simp
  | some rootNode =>
      cases root (read docs input' fromFile') with
      | none => simp
      | some rootNode' =>
          simp only [Option.elim_some, Prod.mk.injEq, true_and, Option.map_some, Option.some.injEq]
          constructor
          · intro h
            exact h []
          · intro h collection
            rw [happend collection rootNode, happend collection rootNode', h]

end ParseRoot

/-- The parsers give the same for the text itself and for the file. -/
structure SameFromString (docs : Documents) (lib : ConfigLibraries) (text filename : List Char) :
    Prop where
  attributes : ∀ attrCollection,
    parse docs lib attrCollection text false = parse docs lib attrCollection filename true
  alarms : ∀ alarmCollection,
    parseAlarms docs lib alarmCollection text false = parseAlarms docs lib alarmCollection filename true
  archived : ∀ archivedAttrCollection,
    parseArchivedAttrs docs lib archivedAttrCollection text false =
      parseArchivedAttrs docs lib archivedAttrCollection filename true

/-- There is nothing to parse in the text, or there is a file that has the text for its name, and the
same in it. -/
structure NamesItself (docs : Documents) (lib : ConfigLibraries) (text : List Char) : Prop where
  missing : docs.files text = none → root (docs.load text parseEscapes) = none
  named : ∀ other ∈ docs.files text,
    (root (docs.load other parseDefault)).map (contents lib) =
      (root (docs.load text parseEscapes)).map (contents lib)

section Same

variable {docs : Documents} {lib : ConfigLibraries} {text filename : List Char}

theorem namesItself_iff : NamesItself docs lib text ↔
    (root (readFromString docs text)).map (contents lib) =
      (root (docs.load text parseEscapes)).map (contents lib) := by
  unfold readFromString
  cases hfiles : docs.files text with
  | none =>
      constructor
      · intro h
        rw [h.missing hfiles]
        rfl
      · intro h
        refine ⟨fun _ => ?_, fun other hother => by simp [hfiles] at hother⟩
        exact Option.map_eq_none_iff.mp h.symm
  | some other =>
      constructor
      · exact fun h => h.named other hfiles
      · intro h
        refine ⟨fun hnone => by simp [hfiles] at hnone, fun other' hother => ?_⟩
        obtain rfl := Option.some.inj (hfiles.symm.trans hother)
        exact h

theorem parseAttributes_append (collection : List DeviceAttrPtr) (rootNode : XmlNode) :
    parseAttributes lib collection rootNode = collection ++ parseAttributes lib [] rootNode := by
  simp only [parseAttributes, List.nil_append, List.append_assoc]

theorem parseAlarmCollection_append (collection : List AlarmData) (rootNode : XmlNode) :
    parseAlarmCollection lib collection rootNode =
      collection ++ parseAlarmCollection lib [] rootNode := by
  simp only [parseAlarmCollection, List.nil_append]

theorem parseArchivedAttrCollection_append (collection : List ArchivedData) (rootNode : XmlNode) :
    parseArchivedAttrCollection lib collection rootNode =
      collection ++ parseArchivedAttrCollection lib [] rootNode := by
  simp only [parseArchivedAttrCollection, List.nil_append]

/-- **A text is parsed as the file is that holds it just when there is nothing to parse, or the text is
the name of a file that is parsed to the same.** -/
theorem sameFromString_iff (hfile : docs.files filename = some text) :
    SameFromString docs lib text filename ↔ NamesItself docs lib text := by
  have hstring : read docs text false = readFromString docs text := rfl
  have hread : read docs filename true = docs.load text parseEscapes := by
    calc read docs filename true = (docs.files filename).bind (docs.load · parseEscapes) := rfl
      _ = docs.load text parseEscapes := by rw [hfile, Option.bind_some]
  rw [namesItself_iff, ← hstring, ← hread, map_contents_eq_iff]
  constructor
  · intro h
    refine ⟨?_, ?_, ?_⟩
    · exact (parseRoot_eq_iff parseAttributes_append).mp h.attributes
    · exact (parseRoot_eq_iff parseAlarmCollection_append).mp h.alarms
    · exact (parseRoot_eq_iff parseArchivedAttrCollection_append).mp h.archived
  · rintro ⟨hattributes, halarms, harchived⟩
    constructor
    · exact (parseRoot_eq_iff parseAttributes_append).mpr hattributes
    · exact (parseRoot_eq_iff parseAlarmCollection_append).mpr halarms
    · exact (parseRoot_eq_iff parseArchivedAttrCollection_append).mpr harchived

end Same

def bareText : List Char := "<DeviceConfiguration/>".toList

def archiveText : List Char :=
  ("<DeviceConfiguration><ArchivedAttributes><ArchivedAttribute><Name>temp</Name>"
    ++ "<Strategies><Strategy>RUN</Strategy></Strategies>"
    ++ "</ArchivedAttribute></ArchivedAttributes></DeviceConfiguration>").toList

def archiveNode : XmlNode :=
  .element "ArchivedAttribute" [] none
    [.leaf "Name" "temp".toList,
      .element "Strategies" [] none [.leaf "Strategy" "RUN".toList]]

/-- Two documents. The second one stands in a file that has the text for its name. -/
def sampleDocuments : Documents where
  load text _ :=
    if text = bareText then
      some (.element "" [] none [.element "DeviceConfiguration" [] none []])
    else if text = archiveText then
      some (.element "" [] none
        [.element "DeviceConfiguration" [] none
          [.element "ArchivedAttributes" [] none [archiveNode]]])
    else none
  files name :=
    if name = "bare.xml".toList then some bareText
    else if name = archiveText then some archiveText
    else none

theorem files_archiveText : sampleDocuments.files archiveText = some archiveText := by
  have hbare : archiveText ≠ "bare.xml".toList := by decide +kernel
  simp only [sampleDocuments, if_neg hbare, if_true]

theorem files_bareText : sampleDocuments.files bareText = none := by
  have hbare : bareText ≠ "bare.xml".toList := by decide
  have harchive : bareText ≠ archiveText := by decide +kernel
  simp only [sampleDocuments, if_neg hbare, if_neg harchive]

theorem sameFromString_archiveText :
    SameFromString sampleDocuments sampleLibraries archiveText archiveText := by
  refine (sameFromString_iff files_archiveText).mpr ⟨fun hnone => ?_, fun other hother => ?_⟩
  · exact absurd (hnone.symm.trans files_archiveText) (Option.some_ne_none archiveText).symm
  · obtain rfl := Option.some.inj (files_archiveText.symm.trans hother)
    rfl

/-- The root is found in the file and not in the string. -/
theorem not_sameFromString_bareText :
    ¬SameFromString sampleDocuments sampleLibraries bareText "bare.xml".toList := by
  intro h
  have hread : read sampleDocuments bareText false = none := by
    change readFromString sampleDocuments bareText = none
    rw [readFromString, files_bareText, Option.bind_none]
  have hstring : (parse sampleDocuments sampleLibraries [] bareText false).1 = -1 := by
    rw [parse, parseRoot_eq, hread]
    rfl
  have hfile : (parse sampleDocuments sampleLibraries [] "bare.xml".toList true).1 = 0 := rfl
  have hstatus := congrArg Prod.fst (h.attributes [])
  exact absurd (hstring.symm.trans (hstatus.trans hfile)) (by decide)

end DevConfigParser

end DshLmc
