import AdaptiveConsensus.Config.Dotenv
import AdaptiveConsensus.Forest.Basic
import AdaptiveConsensus.Link.Exchange
import AdaptiveConsensus.Program.Agent
import AdaptiveConsensus.Program.Report
import AdaptiveConsensus.Proofs.Episode.Schedule
import AdaptiveConsensus.Proofs.Experience.Strategies
import AdaptiveConsensus.Random.ChaCha
import AdaptiveConsensus.Wire.ProtocolName
import AdaptiveConsensus.Main
import AdaptiveConsensus.Proofs.Episode.Books
import AdaptiveConsensus.Proofs.Decimal.Characters
import AdaptiveConsensus.Proofs.TrainingLog.Written
import AdaptiveConsensus.Proofs.Snapshot.ReadBack
import AdaptiveConsensus.Proofs.Episode.Restart
import AdaptiveConsensus.Proofs.Episode.Exploration
import AdaptiveConsensus.Proofs.Episode.Freshness
import AdaptiveConsensus.Proofs.Snapshot.Summary
import AdaptiveConsensus.Proofs.Episode.Dependence
import AdaptiveConsensus.Proofs.Link.Interleaving
import AdaptiveConsensus.Proofs.Strategy.Encoding
import AdaptiveConsensus.Proofs.Strategy.Shapes
import AdaptiveConsensus.Proofs.Episode.Clocks
import AdaptiveConsensus.Proofs.Strategy.Ties
import AdaptiveConsensus.Proofs.Text.Blanks
import AdaptiveConsensus.Proofs.Snapshot.Layout
import AdaptiveConsensus.Proofs.Snapshot.LogNames
import AdaptiveConsensus.Proofs.TrainingLog.Agreement
import AdaptiveConsensus.Proofs.TrainingLog.RoundTrip
import AdaptiveConsensus.Proofs.Wire.Codec
import AdaptiveConsensus.Proofs.Strategy.Targets
import AdaptiveConsensus.Proofs.Experience.Resampling
