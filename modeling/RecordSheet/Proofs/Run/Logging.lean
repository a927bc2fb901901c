import RecordSheet.Proofs.Run.Effects
import RecordSheet.Proofs.Run.Interchange

namespace RecordSheet

open Command Log

namespace Tree

variable (t : Tree) (options : Options) (directoryName stdin : Bytes)

end Tree

end RecordSheet
