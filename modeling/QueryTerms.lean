import QueryTerms.Main
import QueryTerms.Proofs.AtomicFetch
import QueryTerms.Proofs.BindingHistory
import QueryTerms.Proofs.BoundLeaves
import QueryTerms.Proofs.BufferLife
import QueryTerms.Proofs.CommandRuns
import QueryTerms.Proofs.ContinuedDocuments
import QueryTerms.Proofs.CursorIteration
import QueryTerms.Proofs.CursorValidity
import QueryTerms.Proofs.DialectFiles
import QueryTerms.Proofs.DroppedFields
import QueryTerms.Proofs.FetchedFields
import QueryTerms.Proofs.Frames
import QueryTerms.Proofs.GlobalOptions
import QueryTerms.Proofs.IndependentCursors
import QueryTerms.Proofs.JoinedLists
import QueryTerms.Proofs.LimitedRoom
import QueryTerms.Proofs.NarrowRows
import QueryTerms.Proofs.NumericPrefix
import QueryTerms.Proofs.OptionTransfer
import QueryTerms.Proofs.ParameterHistory
import QueryTerms.Proofs.ParameterViews
import QueryTerms.Proofs.ReadingBack
import QueryTerms.Proofs.RendererLineage
import QueryTerms.Proofs.ResetNeutrality
import QueryTerms.Proofs.SeparateFields
import QueryTerms.Proofs.TokenStream
import QueryTerms.Proofs.UnboundColumns
import QueryTerms.Proofs.UniqueReading
import QueryTerms.Proofs.VisibleTerms
import QueryTerms.Proofs.WrongNames
import QueryTerms.Workspace.Step
