import DistributedRL.Data.Dict
import DistributedRL.Data.NDArray
import DistributedRL.Data.Mean
import DistributedRL.Data.PrefixCode
import DistributedRL.Data.Episode
import DistributedRL.Data.Transition
import DistributedRL.Data.Batches
import DistributedRL.Data.Tensor
import DistributedRL.Data.Numeric
import DistributedRL.Env.Acrobot
import DistributedRL.Env.Bounds
import DistributedRL.Env.CartPole
import DistributedRL.Env.Divisors
import DistributedRL.Env.Episodes
import DistributedRL.Env.MountainCar
import DistributedRL.Env.SwingBot
import DistributedRL.Env.Upright
import DistributedRL.Env.Vectorized
import DistributedRL.Config.TrainConfig
import DistributedRL.Config.Launch
import DistributedRL.Config.Schedule
import DistributedRL.Config.Decay
import DistributedRL.Comms.Protocol
import DistributedRL.Comms.Framing
import DistributedRL.Comms.Outgoing
import DistributedRL.Server.WeightStore
import DistributedRL.Server.ApplyGradients
import DistributedRL.Server.AllOrNothing
import DistributedRL.Server.Checkpoint
import DistributedRL.Server.Loading
import DistributedRL.Server.HeartbeatMonitor
import DistributedRL.Server.GradientAggregator
import DistributedRL.Server.HandleWorker
import DistributedRL.Server.Rules
import DistributedRL.Server.Resume
import DistributedRL.Server.StoreType
import DistributedRL.Worker.Client
import DistributedRL.Worker.Cluster
import DistributedRL.Server.Scenario
import DistributedRL.Worker.Script
import DistributedRL.Server.Sending
import DistributedRL.Server.Barrier
import DistributedRL.Server.Registry
import DistributedRL.Server.Deltas
import DistributedRL.Server.Malformed
import DistributedRL.Worker.Conversation
import DistributedRL.Worker.Covered
import DistributedRL.Worker.Pushes
import DistributedRL.Worker.Acks
import DistributedRL.Worker.AckDiscipline
import DistributedRL.Server.Average
import DistributedRL.Network.StateDict
import DistributedRL.Worker.Updates
import DistributedRL.Worker.Steady
import DistributedRL.Worker.Fresh
import DistributedRL.Worker.LocalUpdate
import DistributedRL.Worker.RoundTrip
import DistributedRL.Worker.Members
import DistributedRL.Worker.FedAvg
import DistributedRL.Worker.RolloutBuffer
import DistributedRL.Worker.Gae
import DistributedRL.Worker.Minibatches
import DistributedRL.Network.Actor
import DistributedRL.Worker.Ratio
import DistributedRL.Worker.Collection
import DistributedRL.Worker.Returns
import DistributedRL.Worker.Training
import DistributedRL.Server.Anonymous
import DistributedRL.Server.Locked
import DistributedRL.Server.Atomic
import DistributedRL.Server.Versions
import DistributedRL.Server.Snapshots
import DistributedRL.Server.Submit
import DistributedRL.Server.Reports
import DistributedRL.Server.Freshness
import DistributedRL.Server.FailedSave
import DistributedRL.Server.Silence
import DistributedRL.Data.Momentum
import DistributedRL.Server.References
import DistributedRL.Server.Momentum
import DistributedRL.Server.Threads
import DistributedRL.Data.Derivative
import DistributedRL.Network.Mlp
import DistributedRL.Worker.Ppo
import DistributedRL.Worker.Epochs
import DistributedRL.Worker.Bounded
import DistributedRL.Server.Dashboard
import DistributedRL.Server.Detection
import DistributedRL.Worker.Termination
import DistributedRL.Worker.Serial
import DistributedRL.Server.Quorum
import DistributedRL.Worker.Quorum
import DistributedRL.Worker.Lockstep
import DistributedRL.Server.Norms
import DistributedRL.Data.Windows
import DistributedRL.Server.Page
import DistributedRL.Env.Mirror
import DistributedRL.Worker.Earned
import DistributedRL.Worker.Heartbeats
import DistributedRL.Worker.Reproducible
