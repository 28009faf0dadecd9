import SdpRelay.Fault
import SdpRelay.OneVariable
import SdpRelay.Parameter
import SdpRelay.PenaltySchedule
import SdpRelay.Presolve.Outcome
import SdpRelay.Presolve.Workspace
import SdpRelay.Printer
import SdpRelay.ProblemFile.Fault
import SdpRelay.ProblemFile.Format
import SdpRelay.ProblemFile.Parser
import SdpRelay.ProblemFile.Reader
import SdpRelay.ProblemFile.Shape
import SdpRelay.ProblemFile.Writer
import SdpRelay.Proofs.AgreeingRuns
import SdpRelay.Proofs.BoundSources
import SdpRelay.Proofs.BoundTightening
import SdpRelay.Proofs.CheckedAccess
import SdpRelay.Proofs.CheckedBlocks
import SdpRelay.Proofs.CheckedCompaction
import SdpRelay.Proofs.CheckedEigenpairs
import SdpRelay.Proofs.CheckedMatrices
import SdpRelay.Proofs.CheckedOneVariable
import SdpRelay.Proofs.CheckedPrepared
import SdpRelay.Proofs.CheckedRows
import SdpRelay.Proofs.CheckedSolve
import SdpRelay.Proofs.CheckedTightening
import SdpRelay.Proofs.CoefficientTightening
import SdpRelay.Proofs.CompactedBlocks
import SdpRelay.Proofs.CompressedRows
import SdpRelay.Proofs.DenseMatrices
import SdpRelay.Proofs.DoubleOrder
import SdpRelay.Proofs.DoublePatterns
import SdpRelay.Proofs.ExactEigenpairs
import SdpRelay.Proofs.ExactField
import SdpRelay.Proofs.FeasibleStops
import SdpRelay.Proofs.FileRecords
import SdpRelay.Proofs.FixedPoints
import SdpRelay.Proofs.FixedRays
import SdpRelay.Proofs.FoldedConstants
import SdpRelay.Proofs.GapCourse
import SdpRelay.Proofs.GapTightenings
import SdpRelay.Proofs.GivenPoints
import SdpRelay.Proofs.IntegralPoints
import SdpRelay.Proofs.JacobiSweeps
import SdpRelay.Proofs.KeptIndices
import SdpRelay.Proofs.KeptRowPositions
import SdpRelay.Proofs.MarkedIndices
import SdpRelay.Proofs.MergedEntries
import SdpRelay.Proofs.MirroredSettings
import SdpRelay.Proofs.NamedSides
import SdpRelay.Proofs.NearestDoubles
import SdpRelay.Proofs.NestedPhases
import SdpRelay.Proofs.NewtonSteps
import SdpRelay.Proofs.NewtonStops
import SdpRelay.Proofs.NumberLiterals
import SdpRelay.Proofs.OneVariablePath
import SdpRelay.Proofs.OpenRows
import SdpRelay.Proofs.PassCourse
import SdpRelay.Proofs.PenaltyBounds
import SdpRelay.Proofs.PenaltyEscalation
import SdpRelay.Proofs.PenaltyRounds
import SdpRelay.Proofs.PlaneRotations
import SdpRelay.Proofs.PreparedWorkspace
import SdpRelay.Proofs.PresolveFeasibility
import SdpRelay.Proofs.PresolveRun
import SdpRelay.Proofs.PresolveVisits
import SdpRelay.Proofs.PresolvedPoints
import SdpRelay.Proofs.PrimalCertificates
import SdpRelay.Proofs.RecessionCones
import SdpRelay.Proofs.RecordedPhases
import SdpRelay.Proofs.RecoveredMultipliers
import SdpRelay.Proofs.RecoveryJournal
import SdpRelay.Proofs.RefusedTexts
import SdpRelay.Proofs.RepeatedPresolve
import SdpRelay.Proofs.RepeatedTightening
import SdpRelay.Proofs.RestedSessions
import SdpRelay.Proofs.RestorableSessions
import SdpRelay.Proofs.RestoredSessions
import SdpRelay.Proofs.RowSemantics
import SdpRelay.Proofs.RowSlacks
import SdpRelay.Proofs.ScheduleLength
import SdpRelay.Proofs.SerialiserLaws
import SdpRelay.Proofs.SessionHistory
import SdpRelay.Proofs.SessionSolves
import SdpRelay.Proofs.SettingsHistory
import SdpRelay.Proofs.SettingsUpdates
import SdpRelay.Proofs.SettledRows
import SdpRelay.Proofs.SharedParameters
import SdpRelay.Proofs.ShortestDigits
import SdpRelay.Proofs.SlackMatrices
import SdpRelay.Proofs.SolveCourse
import SdpRelay.Proofs.SolveExits
import SdpRelay.Proofs.SolveOutcomes
import SdpRelay.Proofs.SolveParts
import SdpRelay.Proofs.SolveSteps
import SdpRelay.Proofs.SolverCalls
import SdpRelay.Proofs.StepResults
import SdpRelay.Proofs.StoreChecks
import SdpRelay.Proofs.StoreLayout
import SdpRelay.Proofs.StoreRefinement
import SdpRelay.Proofs.StoredParameters
import SdpRelay.Proofs.StoredPrograms
import SdpRelay.Proofs.SweptWorkspaces
import SdpRelay.Proofs.TextReaders
import SdpRelay.Proofs.TightenedRows
import SdpRelay.Proofs.TruthfulBounds
import SdpRelay.Proofs.UnseenSteps
import SdpRelay.Proofs.ValidSettings
import SdpRelay.Proofs.VisitedRows
import SdpRelay.Proofs.WrittenDoubles
import SdpRelay.Session.Basic
import SdpRelay.Session.File
import SdpRelay.Session.Parameters
import SdpRelay.Session.Queries
import SdpRelay.Session.Solve
import SdpRelay.Solve.Notice
import SdpRelay.Solve.Pipeline
import SdpRelay.Solve.Recovery
import SdpRelay.Solve.Run
import SdpRelay.Solve.Slater
import SdpRelay.Solve.SlaterCheck
import SdpRelay.Solve.Verdict
import SdpRelay.Solver.OneVariable
import SdpRelay.Solver.Scripted
import SdpRelay.Timing.Phases
