import CodeSnippets.Main
import CodeSnippets.Proofs.Command.ProgramRuns
import CodeSnippets.Proofs.Debounce.NewestEdit
import CodeSnippets.Proofs.Debounce.Publications
import CodeSnippets.Proofs.Debounce.Results
import CodeSnippets.Proofs.Highlight.CalledNames
import CodeSnippets.Proofs.Highlight.CommentScans
import CodeSnippets.Proofs.Highlight.CommentTexts
import CodeSnippets.Proofs.Highlight.OperatorSpacing
import CodeSnippets.Proofs.Highlight.SealedSegments
import CodeSnippets.Proofs.Highlight.SpanCounts
import CodeSnippets.Proofs.Highlight.StreamHistories
import CodeSnippets.Proofs.Highlight.StringLiterals
import CodeSnippets.Proofs.Highlight.WordEdges
import CodeSnippets.Proofs.Highlight.WordPasses
import CodeSnippets.Proofs.Highlight.WordTables
import CodeSnippets.Proofs.Session.BlankTexts
import CodeSnippets.Proofs.Session.ShareLinks
import CodeSnippets.Proofs.Settings.SavedSettings
import CodeSnippets.Proofs.Snippets.RequestEffects
import CodeSnippets.Proofs.Snippets.SharedStore
import CodeSnippets.Proofs.Snippets.StoreRefinement
