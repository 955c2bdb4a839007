import ValuePath.Options.Standard
import ValuePath.Proofs.Extraction.Composition
import ValuePath.Proofs.Extraction.InlineHooks
import ValuePath.Proofs.Extraction.LetterCase
import ValuePath.Proofs.Extraction.Pointers
import ValuePath.Proofs.Extraction.Restriction
import ValuePath.Proofs.Extraction.Tracing
import ValuePath.Proofs.Json.Extraction
import ValuePath.Proofs.Path.Concatenation
import ValuePath.Proofs.Path.FirstError
import ValuePath.Proofs.Path.RoundTrip
import ValuePath.Proofs.Path.Shift
import ValuePath.Proofs.Path.Tiling
import ValuePath.Proofs.Entries.Insertion
import ValuePath.Proofs.Path.ErrorOrder
import ValuePath.Proofs.Path.RepeatedCalls
import ValuePath.Proofs.Extraction.Registration
import ValuePath.Proofs.Value.SelfEquality
import ValuePath.Proofs.Entries.Lookup
import ValuePath.Proofs.Json.Documents
import ValuePath.Proofs.Extraction.Termination
import ValuePath.Proofs.Path.Chain
