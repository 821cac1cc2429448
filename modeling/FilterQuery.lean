import FilterQuery.Main
import FilterQuery.Proofs.Query.ArrayAgreement
import FilterQuery.Proofs.Query.LeafAgreement
import FilterQuery.Proofs.Query.TextAgreement
import FilterQuery.Proofs.Expression.ReadBack
import FilterQuery.Proofs.Query.DisplayReading
import FilterQuery.Proofs.Expression.Recompile
import FilterQuery.Proofs.Query.Candidates
import FilterQuery.Proofs.Query.Caseless
import FilterQuery.Proofs.Schema.ReadBack
import FilterQuery.Proofs.Query.Nesting
import FilterQuery.Proofs.Query.OperandShape
import FilterQuery.Proofs.Query.FieldMeaning
import FilterQuery.Proofs.Value.Time
import FilterQuery.Proofs.Token.Idempotence
import FilterQuery.Proofs.Query.FieldSlot
import FilterQuery.Proofs.Query.NumberReading
import FilterQuery.Proofs.Query.FieldText
import FilterQuery.Proofs.Query.SurroundingBlanks
import FilterQuery.Proofs.Query.QuotedLookup
import FilterQuery.Proofs.Token.Scanning
import FilterQuery.Proofs.Lexicon.KeywordTests
