import ToolAgent.Config
import ToolAgent.Evaluation.Report
import ToolAgent.Evaluation.RunSingleTask
import ToolAgent.Integration.AgentLoop
import ToolAgent.Integration.Database
import ToolAgent.Integration.Interaction
import ToolAgent.Integration.Replay
import ToolAgent.Integration.Sessions
import ToolAgent.Integration.Tools
import ToolAgent.Library.Blocks
import ToolAgent.Library.Dialogue
import ToolAgent.Library.Fragments
import ToolAgent.Library.Grouping
import ToolAgent.Library.Interleaving
import ToolAgent.Library.Memo
import ToolAgent.Library.Prog
import ToolAgent.Library.Runs
import ToolAgent.Library.Selection
import ToolAgent.Library.Spans
import ToolAgent.Library.Sweep
import ToolAgent.Library.Tables
import ToolAgent.Python.Builtins
import ToolAgent.Python.Lines
import ToolAgent.Python.RoundTrip
import ToolAgent.Rollout.Conversation
import ToolAgent.Rollout.HermesToolParser
import ToolAgent.Rollout.Postprocess
import ToolAgent.Setup.PatchVerlVllmCompat
import ToolAgent.Sft.Collect
import ToolAgent.Sft.CrashSafety
import ToolAgent.Sft.Dataset
import ToolAgent.Sft.Oracle
import ToolAgent.Sft.Policy
import ToolAgent.Sft.Resume
import ToolAgent.Sft.Rollout
import ToolAgent.Sft.Split
import ToolAgent.Sft.Trajectories
import ToolAgent.Sft.Transcript
import ToolAgent.Sft.Truncation
import ToolAgent.TauBench.Airline.Invariants
import ToolAgent.TauBench.Airline.Rollouts
import ToolAgent.TauBench.Airline.Steps
import ToolAgent.TauBench.Airline.Tools
import ToolAgent.TauBench.Env
import ToolAgent.ToolArguments
import ToolAgent.Trainer.ApplyBNdsr
import ToolAgent.Trainer.Curriculum
import ToolAgent.Trainer.DataProto
import ToolAgent.Trainer.GrpoAdvantage
import ToolAgent.Trainer.JudgeReward
import ToolAgent.Trainer.MicroBatches
import ToolAgent.Trainer.RolloutPlan
import ToolAgent.Trainer.Rounds
import ToolAgent.Training.BNdsr
import ToolAgent.Training.DensifyRewards
import ToolAgent.Training.Jass
import ToolAgent.Training.JudgeScores
import ToolAgent.Training.LlmJudge
import ToolAgent.Training.Payloads
import ToolAgent.Training.Steps
