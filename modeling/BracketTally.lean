import BracketTally.FileTree
import BracketTally.Main
import BracketTally.Proofs.Utf8
import BracketTally.Proofs.Walk
import BracketTally.Proofs.Literals
import BracketTally.Proofs.Cursor
import BracketTally.Proofs.Roles
import BracketTally.Proofs.Masking
import BracketTally.Proofs.Newlines
import BracketTally.Proofs.Delivery
import BracketTally.Proofs.WellFormed
import BracketTally.Proofs.Unsplit
import BracketTally.Proofs.Redelivery
import BracketTally.Proofs.Outcomes
import BracketTally.Proofs.Malformed
import BracketTally.Proofs.WholeFile
import BracketTally.Proofs.ReadBack
import BracketTally.Proofs.Composition
import BracketTally.Proofs.CutShort
import BracketTally.Proofs.Spelling
import BracketTally.Proofs.Independence
import BracketTally.Proofs.Imbalance
import BracketTally.Proofs.Diagnostics
import BracketTally.Proofs.Changes
import BracketTally.Proofs.Continuation
import BracketTally.Proofs.Magnitude
import BracketTally.Proofs.Symmetry
import BracketTally.Proofs.Writings
import BracketTally.Proofs.Layout
