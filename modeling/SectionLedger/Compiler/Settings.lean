import SectionLedger.Compiler.Options

/-!
# Settings

The settings of a compile run: the compiler and the names of the files it reads and writes, the
options it is asked for, and where the ledger is kept.  Every setting has a default.
-/

namespace SectionLedger

/-- A compiler, and the names of the files it reads and writes. -/
structure Tool where
  binary : String := "sdcc"
  stem : String := "source"
  sourceExtension : String := ".c"
  listingExtension : String := ".asm"
  deriving DecidableEq, Repr

namespace Tool

/-- The name of the file that is compiled, as the compiler reports it. -/
def sourceName (t : Tool) : String := t.stem ++ t.sourceExtension

/-- The name of the listing. -/
def listingName (t : Tool) : String := t.stem ++ t.listingExtension

end Tool

/-- The settings of a compile run. -/
structure Settings where
  tool : Tool := {}
  options : Options := {}
  /-- Where the ledger is kept. -/
  ledgerPath : String := "sections.json"
  deriving DecidableEq, Repr

namespace Settings

/-- The file that settings are read from if no other is named. -/
def defaultPath : String := "sectioner.toml"

end Settings

end SectionLedger
