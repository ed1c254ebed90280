import FileShell.Completion
import FileShell.Text.Utf8Laws
import FileShell.Proofs.Stages
import FileShell.Proofs.Moving
import FileShell.Proofs.Guard
import FileShell.Proofs.Frame
import FileShell.Proofs.Transcript
import FileShell.Proofs.Tokens
import FileShell.Proofs.Concatenation
import FileShell.Proofs.Arrows
import FileShell.Proofs.Operands
import FileShell.Proofs.FileSystem.Additions
import FileShell.Proofs.FailedMoves
import FileShell.Proofs.Transplant
import FileShell.Proofs.Removal
import FileShell.Proofs.FileSystem.Descendants
import FileShell.Proofs.FileSystem.Relative
import FileShell.Proofs.Listings
import FileShell.Proofs.InTurn
import FileShell.Proofs.Path.Home
import FileShell.Proofs.Arrival
import FileShell.Proofs.Contents
import FileShell.Proofs.Navigation
import FileShell.Proofs.Path.Canonical
import FileShell.Proofs.FailedRedirections
import FileShell.Proofs.Reports
import FileShell.Proofs.Undoing
import FileShell.Proofs.Making
import FileShell.Proofs.Screen
import FileShell.Proofs.Saving
import FileShell.Proofs.Completing
import FileShell.Proofs.Arguments
import FileShell.Proofs.Path.Ancestors
import FileShell.Proofs.Text.Spacing
