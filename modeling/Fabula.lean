import Fabula.Text.Alphabetic
import Fabula.Text.Uppercase
import Fabula.Text.CaseMapping
import Fabula.Text.Printable
import Fabula.Text.Quoted
import Fabula.Text.Blank
import Fabula.Numeral.Shortest
import Fabula.Numeral.Reading
import Fabula.Table
import Fabula.Template.ArgumentList
import Fabula.Template.Parser
import Fabula.Template.Format
import Fabula.Random.Mixed
import Fabula.Random.Pick
import Fabula.Markov.Model
import Fabula.Ron.Reader
import Fabula.Ron.Writer
import Fabula.Template.Data
import Fabula.Markov.File
import Fabula.Grammar.Basic
import Fabula.Grammar.Edit
import Fabula.Inflect
import Fabula.Expand.Interpreter
import Fabula.Lint
import Fabula.Generator
import Fabula.Proofs.Unwinding
import Fabula.Proofs.ByValueSound
import Fabula.Proofs.Exhaustion
import Fabula.Proofs.TemplateReading
import Fabula.Proofs.NestedTemplates
import Fabula.Proofs.Filling
import Fabula.Proofs.TrainedModel
import Fabula.Proofs.Limit
import Fabula.Proofs.Recording
import Fabula.Proofs.Layout
import Fabula.Proofs.Merging
import Fabula.Proofs.Checked
import Fabula.Proofs.TrainedLanguage
import Fabula.Proofs.DrawBound
import Fabula.Proofs.EndlessRules
import Fabula.Proofs.Decorators
import Fabula.Proofs.DeclarationOrder
import Fabula.Proofs.Shortfall
import Fabula.Proofs.Exclusion
import Fabula.Proofs.Replay
import Fabula.Proofs.Distinct
import Fabula.Proofs.StoredModels
import Fabula.Proofs.EscapedNames
import Fabula.Proofs.Proportions
import Fabula.Proofs.FalseAlarms
import Fabula.Proofs.MarkovTries
import Fabula.Proofs.Resolutions
import Fabula.Proofs.StoreGrowth
import Fabula.Proofs.TrainedTable
import Fabula.Proofs.ArgumentReading
import Fabula.Proofs.ArgumentFaults
import Fabula.Proofs.FaultPlaces
import Fabula.Proofs.DiceNotation
import Fabula.Proofs.Repetition
import Fabula.Proofs.RuleReferences
import Fabula.Proofs.Inflection
import Fabula.Proofs.Capitals
import Fabula.Proofs.FloatDraws
import Fabula.Proofs.StoredTemplates
