import MiningPipelines.Artifact.ColorsLog
import MiningPipelines.Artifact.Graph
import MiningPipelines.Catalogue.Diagrams
import MiningPipelines.Catalogue.EventLog
import MiningPipelines.Catalogue.Options
import MiningPipelines.Grpc
import MiningPipelines.Http
import MiningPipelines.Kind.Document
import MiningPipelines.Link
import MiningPipelines.Proofs.AdditiveChanges
import MiningPipelines.Proofs.AllOrNothing
import MiningPipelines.Proofs.BinaryRoundTrip
import MiningPipelines.Proofs.Buildable
import MiningPipelines.Proofs.Cancellation
import MiningPipelines.Proofs.Catalogued
import MiningPipelines.Proofs.ConfigHistory
import MiningPipelines.Proofs.ContextHistory
import MiningPipelines.Proofs.Correlation
import MiningPipelines.Proofs.DiscoveryKnobs
import MiningPipelines.Proofs.Dispatches
import MiningPipelines.Proofs.Fetches
import MiningPipelines.Proofs.FindPatterns
import MiningPipelines.Proofs.Legend
import MiningPipelines.Proofs.LogLines
import MiningPipelines.Proofs.Schedules
import MiningPipelines.Proofs.Sending
import MiningPipelines.Proofs.Sinks
import MiningPipelines.Proofs.TextRoundTrip
import MiningPipelines.Proofs.Trace
import MiningPipelines.Proofs.Transports
import MiningPipelines.Proofs.TypedResults
