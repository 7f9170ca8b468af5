import Ninfer.Core.ArenaTiling
import Ninfer.Core.PoolRuns
import Ninfer.StateImage.ForkPins
import Ninfer.Engine.Outstanding
import Ninfer.Engine.Quiescence
import Ninfer.Engine.KvCapacity
import Ninfer.Resources.Ownership
import Ninfer.Resources.Sessions
import Ninfer.Resources.IdleProgress
import Ninfer.Resources.CheckpointDrops
import Ninfer.Resources.Demand
import Ninfer.Qwen.ResidentHistory
import Ninfer.Qwen.RebuildWork
import Ninfer.Frontend.ControlTokens
import Ninfer.Qwen.Entitlement
import Ninfer.Qwen.ConsumedRelease
import Ninfer.Media.Fetch
import Ninfer.Serve.ThinkingSignature
import Ninfer.Planner.SharedCapture
import Ninfer.Planner.MaterializationPlan
import Ninfer.Engine.ContextCost
import Ninfer.FlashNext.Admission
