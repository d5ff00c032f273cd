import Chm.Settled
import Chm.StatusConfirm
import Chm.OrderRuns
import Chm.StatusNet
import Chm.TimeOrder
import Chm.Sockets
import Chm.FindRuns
import Chm.MqRandom
import Chm.MqReload
import Chm.QueueRuns
import Chm.SendKeys
import Chm.AckNet
import Chm.ClientQueue
import Chm.MergeRuns
import Chm.CompleteNet
import Chm.SelfSock
import Chm.HashArrays
import Chm.SlaveIds
import Chm.WireBounds
import Chm.SuspendLaps
import Chm.C2c
import Chm.Kvp
import Chm.MergeRange
import Chm.ReceiverRules
import Chm.LastTime
import Chm.DestQueues
import Chm.Threads
import Chm.KeyNet
import Chm.OwnAck
import Chm.Replies
import Chm.ServerLaps
import Chm.Stat
import Chm.ChmLog
import Chm.Overwrite
import Chm.ClientPids
import Chm.HostPorts
import Chm.CompareSymm
import Chm.InOrder
import Chm.ServiceOut
import Chm.CfgInfo
import Chm.MergeRefused
import Chm.DownLoops
import Chm.IniFile
import Chm.ConfValue
import Chm.NodeLists
import Chm.YamlStack
import Chm.YamlConf
import Chm.YamlLoad
import Chm.IniLoad
import Chm.LoadOrder
import Chm.Rearranged
import Chm.NetDbAges
import Chm.HostRead
import Chm.RegexProduct
import Chm.KvpBounds
import Chm.UpdateRecovery
import Chm.ChangeOrder
import Chm.SendLocks
import Chm.MergeLap
import Chm.ServerDown
import Chm.DownNet
