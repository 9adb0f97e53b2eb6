import Ferrixd.S2S.Carried
import Ferrixd.Ts6.Alignment
import Ferrixd.Ts6.Lines

/-! # Fields that a line cannot carry

Where the last parameter of a native line is empty, has a blank in it or a colon in front, it has no place among the
middle ones of a TS6 line, and the parser reads something else there. -/

namespace Ferrixd

open Protocol

/-! ## What is read in the place of a field -/

end Ferrixd
