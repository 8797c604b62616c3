import PackedFields.Front.Expansion
import PackedFields.Machine.Record
import PackedFields.Machine.Sample
import PackedFields.Proofs.Losses
import PackedFields.Proofs.Packing
import PackedFields.Proofs.Verdict
import PackedFields.Proofs.Restoring
import PackedFields.Proofs.Writing
import PackedFields.Proofs.Published
import PackedFields.Proofs.Term
import PackedFields.Proofs.Printing
import PackedFields.Proofs.Fields
import PackedFields.Proofs.Independence
import PackedFields.Proofs.ItemReports
import PackedFields.Proofs.Preservation
import PackedFields.Proofs.Spilling
import PackedFields.Proofs.Duplicates
import PackedFields.Proofs.Handout
import PackedFields.Proofs.ParserLaws
import PackedFields.Proofs.NameForms
import PackedFields.Proofs.Wrappers
import PackedFields.Proofs.Capacity
import PackedFields.Proofs.InRange
import PackedFields.Proofs.Depiction
import PackedFields.Proofs.NameLetters
import PackedFields.Proofs.Declarations
import PackedFields.Proofs.ParameterNames
import PackedFields.Proofs.Arguments
