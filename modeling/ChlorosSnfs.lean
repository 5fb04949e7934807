import ChlorosSnfs.Chloros.Affinity
import ChlorosSnfs.Chloros.SingleKernel
import ChlorosSnfs.Chloros.ThreadExit
import ChlorosSnfs.Chloros.WaitGuarantee
import ChlorosSnfs.Chloros.HandOverSafety
import ChlorosSnfs.Chloros.RoundRobin
import ChlorosSnfs.Chloros.SpawnNext
import ChlorosSnfs.Chloros.WaitTermination
import ChlorosSnfs.Snfs.FhandledbKeys
import ChlorosSnfs.Snfs.FhandledbRefinement
import ChlorosSnfs.Snfs.ErrorReplies
import ChlorosSnfs.Snfs.HandleStability
import ChlorosSnfs.Snfs.MessageBounds
import ChlorosSnfs.Snfs.PathWalk
import ChlorosSnfs.Snfs.PathAgreement
import ChlorosSnfs.Snfs.HandleIdentity
import ChlorosSnfs.Snfs.Descriptors
import ChlorosSnfs.Snfs.Disclosure
import ChlorosSnfs.Snfs.SubtreeRename
import ChlorosSnfs.Snfs.DatabaseFile
import ChlorosSnfs.Snfs.RemoteFiles
import ChlorosSnfs.Snfs.RenameReply
import ChlorosSnfs.Snfs.BufferSizes
import ChlorosSnfs.Snfs.RemoteTimes
import ChlorosSnfs.Snfs.RemoteListing
import ChlorosSnfs.Snfs.ErrorCodes
import ChlorosSnfs.Chloros.SavedContexts
import ChlorosSnfs.Chloros.ThreadStart
import ChlorosSnfs.Snfs.SetattrReply
import ChlorosSnfs.Snfs.CrashOrdering
import ChlorosSnfs.Snfs.RequestNames
import ChlorosSnfs.Snfs.InterleavedCalls
import ChlorosSnfs.Snfs.RemoteTree
import ChlorosSnfs.Nanomsg.Transmissions
import ChlorosSnfs.Snfs.OverNanomsg
