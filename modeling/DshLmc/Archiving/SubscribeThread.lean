import DshLmc.Archiving.HdbEventSubscriber
import DshLmc.Library.DirtyCounter

/-!
# The subscription thread of the archiver

The commands change the configuration and count each change in `action`. The thread saves the
configuration to the property of the device when something is counted. Commands come one at a time, and
the moves of a command and of the thread come in any order.
-/

namespace DshLmc

/-- The device with the property that is in the database, the command that runs, and the thread. -/
structure Archiver where
  shared : SharedData
  domain_map : DomainMap
  AttributeList : List (List Char)
  command : Editor
  thread : Saver (List (List Char))

/-- A change of the configuration of a signal, as far as a command makes it before it counts it. -/
inductive ConfChange where
  | add (requested : List Char) (ttl : UInt32)
  | remove
  | update (requested : List Char)
  | updatettl (ttl : UInt32)

/-- A move of a command, which may only look a name up, or of the thread in `put_signal_property`. -/
inductive ArchiverMove where
  | lookup (signame : List Char)
  | change (signame : List Char) (conf : ConfChange)
  | compareUp
  | readUp
  | writeUp
  | start (signame : List Char)
  | pause (signame : List Char)
  | stop (signame : List Char)
  | decide
  | take
  | put (succeeds : Bool)
  | compareDown
  | readDown
  | writeDown

namespace Archiver

variable (c : HdbConfig)

def applyChange (signame : List Char) : ConfChange → SharedData → Except HdbError SharedData
  | .add requested ttl =>
      SharedData.addSignal signame (HdbEventSubscriber.appliedStrategy c requested) ttl
  | .remove => SharedData.removeSignal signame
  | .update requested =>
      SharedData.configure signame
        (HdbSignal.withContexts (HdbEventSubscriber.appliedStrategy c requested))
  | .updatettl ttl => SharedData.configure signame (HdbSignal.withTtl ttl)

/-- An operation that throws changes nothing. -/
def onShared (a : Archiver) (f : SharedData → Except HdbError SharedData) : Archiver :=
  { a with shared := (f a.shared).toOption.getD a.shared }

def fixed (a : Archiver) (signame : List Char) : Except HdbError (List Char) × DomainMap :=
  (c.fix_tango_host signame).run.run a.domain_map

/-- A command that looks a name up and changes the signal, up to where it counts the change. -/
def change (signame : List Char) (conf : ConfChange) (a : Archiver) : Archiver :=
  match a.fixed c signame with
  | (.error _, domain_map) => { a with domain_map := domain_map }
  | (.ok signame, domain_map) =>
      match applyChange c signame conf a.shared with
      | .error _ => { a with domain_map := domain_map }
      | .ok shared => { a with shared := shared, domain_map := domain_map, command := .edited }

def step (a : Archiver) : ArchiverMove → Archiver
  | .lookup signame => { a with domain_map := (a.fixed c signame).2 }
  | .change signame conf =>
      match a.command with
      | .quiet => a.change c signame conf
      | _ => a
  | .compareUp =>
      match a.command with
      | .edited =>
          { a with command := if a.shared.action ≤ HDB_UPDATE_PROP then .compared else .quiet }
      | _ => a
  | .readUp =>
      match a.command with
      | .compared => { a with command := .read a.shared.action }
      | _ => a
  | .writeUp =>
      match a.command with
      | .read n => { a with shared := { a.shared with action := n + 1 }, command := .quiet }
      | _ => a
  | .start signame => a.onShared (SharedData.start signame)
  | .pause signame => a.onShared (SharedData.pause signame)
  | .stop signame => a.onShared (SharedData.stop signame)
  | .decide =>
      match a.thread with
      | .waiting =>
          { a with thread := if HDB_NOTHING < a.shared.action then .decided else .waiting }
      | _ => a
  | .take =>
      match a.thread with
      | .decided => { a with thread := .took a.shared.confStrings }
      | _ => a
  | .put succeeds =>
      match a.thread with
      | .took prop =>
          { a with AttributeList := if succeeds then prop else a.AttributeList, thread := .wrote }
      | _ => a
  | .compareDown =>
      match a.thread with
      | .wrote =>
          { a with thread := if HDB_UPDATE_PROP ≤ a.shared.action then .compared else .waiting }
      | _ => a
  | .readDown =>
      match a.thread with
      | .compared => { a with thread := .read a.shared.action }
      | _ => a
  | .writeDown =>
      match a.thread with
      | .read n => { a with shared := { a.shared with action := n - 1 }, thread := .waiting }
      | _ => a

def initial (tmplist : List (List Char)) (hdb : HdbEventSubscriber) : Archiver :=
  ⟨hdb.shared, hdb.domain_map, tmplist, .quiet, .waiting⟩

end Archiver

end DshLmc
