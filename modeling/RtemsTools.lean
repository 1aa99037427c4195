import RtemsTools.Rld
import RtemsTools.Covoar.SymbolTable
import RtemsTools.Covoar.Records
import RtemsTools.Covoar.Lookup
import RtemsTools.Syms.Filter
import RtemsTools.Syms.Generate
import RtemsTools.Toolchain.Cpp
import RtemsTools.Toolchain.Gas
import RtemsTools.Syms.Layout
import RtemsTools.Syms.Table
import RtemsTools.Syms.Main
import RtemsTools.Syms.Options
