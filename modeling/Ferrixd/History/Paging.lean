import Ferrixd.History.Windows

/-! # Paging through a history

A client reads a ring page by page, each query starting where the previous page ended, until a page is empty. -/

namespace Ferrixd

section Paging

variable {history : History} {target : String} {limit : Nat} {events : Bool}

end Paging

end Ferrixd
