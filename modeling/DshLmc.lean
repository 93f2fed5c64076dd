import DshLmc.Alarm.AlarmGrammar
import DshLmc.Alarm.AlarmTable
import DshLmc.Alarm.FormulaEval
import DshLmc.Alarm.FormulaGrammar
import DshLmc.Archiving.HdbDevice
import DshLmc.Archiving.HdbEventSubscriber
import DshLmc.Archiving.HdbNames
import DshLmc.Archiving.SharedData
import DshLmc.Archiving.SubscribeThread
import DshLmc.Core.Randomization
import DshLmc.Library.Counted
import DshLmc.Library.DirtyCounter
import DshLmc.Library.Doubles
import DshLmc.Library.Letters
import DshLmc.Library.ListRelations
import DshLmc.Library.Numerals
import DshLmc.Library.Outcome
import DshLmc.Library.Peg
import DshLmc.Library.Preserves
import DshLmc.Library.Rounding
import DshLmc.Library.Search
import DshLmc.Monitoring.SubscriptionLoop
import DshLmc.Proof.AddTaskSequence
import DshLmc.Proof.AlarmAcks
import DshLmc.Proof.AlarmActions
import DshLmc.Proof.AlarmDelays
import DshLmc.Proof.AlarmExpansion
import DshLmc.Proof.AlarmOptions
import DshLmc.Proof.AlarmPublished
import DshLmc.Proof.AlarmRoundTrip
import DshLmc.Proof.AlarmValues
import DshLmc.Proof.ArchivingContexts
import DshLmc.Proof.ArchivingNames
import DshLmc.Proof.ArchivingSaves
import DshLmc.Proof.ArchivingSetup
import DshLmc.Proof.ArchivingSignals
import DshLmc.Proof.Clearing
import DshLmc.Proof.CommandRelease
import DshLmc.Proof.ConfigureOutcome
import DshLmc.Proof.CyclicDependencies
import DshLmc.Proof.DeafListener
import DshLmc.Proof.DependencyChecks
import DshLmc.Proof.EventLinks
import DshLmc.Proof.EventPromises
import DshLmc.Proof.ExpectedTimes
import DshLmc.Proof.FormulaEvents
import DshLmc.Proof.FormulaMeaning
import DshLmc.Proof.FormulaNodes
import DshLmc.Proof.FormulaRollback
import DshLmc.Proof.FormulaShape
import DshLmc.Proof.FullNames
import DshLmc.Proof.GroupReplies
import DshLmc.Proof.HostNames
import DshLmc.Proof.InitialValues
import DshLmc.Proof.Isolation
import DshLmc.Proof.LastMatrix
import DshLmc.Proof.LiveSubscriptions
import DshLmc.Proof.Locality
import DshLmc.Proof.MainLevel
import DshLmc.Proof.MaskedTasks
import DshLmc.Proof.NagiosAttributes
import DshLmc.Proof.NagiosFraming
import DshLmc.Proof.NameParsing
import DshLmc.Proof.Oversleeping
import DshLmc.Proof.PingWindow
import DshLmc.Proof.PointingAccounts
import DshLmc.Proof.PointingLists
import DshLmc.Proof.PointingWrites
import DshLmc.Proof.PowerRestore
import DshLmc.Proof.ProgressOrder
import DshLmc.Proof.ProxyDown
import DshLmc.Proof.ProxyNames
import DshLmc.Proof.QueueCollection
import DshLmc.Proof.RandomRanges
import DshLmc.Proof.Rules
import DshLmc.Proof.RunStatus
import DshLmc.Proof.SMTransitions
import DshLmc.Proof.Scheduling
import DshLmc.Proof.SignalTallies
import DshLmc.Proof.SlewTargets
import DshLmc.Proof.SortedSequences
import DshLmc.Proof.SortingOrder
import DshLmc.Proof.SpectrumFormulas
import DshLmc.Proof.SpectrumText
import DshLmc.Proof.StatusTime
import DshLmc.Proof.Statuses
import DshLmc.Proof.StowRequest
import DshLmc.Proof.StringDocuments
import DshLmc.Proof.TaskJson
import DshLmc.Proof.TaskProgress
import DshLmc.Proof.TaskTimes
import DshLmc.Proof.VariableNodes
import DshLmc.Utils.AlarmData
import DshLmc.Utils.AttrNode
import DshLmc.Utils.ConfigFile
import DshLmc.Utils.ProxyInfo
import DshLmc.Utils.Signals
import DshLmc.Utils.SpectrumAttrData
import DshLmc.Utils.TangoNames
import DshLmc.Utils.ValueNode
import DshLmc.Utils.Xml
import DshLmc.Utils.YatTime
