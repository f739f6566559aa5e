/-!
# ASCII

Names for the bytes of the marks and letters by which structured texts are read.
-/

namespace LedgerClient.Ascii

@[match_pattern] abbrev quote : UInt8 := 34
@[match_pattern] abbrev plus : UInt8 := 43
@[match_pattern] abbrev comma : UInt8 := 44
@[match_pattern] abbrev minus : UInt8 := 45
@[match_pattern] abbrev point : UInt8 := 46
@[match_pattern] abbrev slash : UInt8 := 47
@[match_pattern] abbrev zero : UInt8 := 48
@[match_pattern] abbrev colon : UInt8 := 58
@[match_pattern] abbrev capitalE : UInt8 := 69
@[match_pattern] abbrev openSquare : UInt8 := 91
@[match_pattern] abbrev backslash : UInt8 := 92
@[match_pattern] abbrev closeSquare : UInt8 := 93
@[match_pattern] abbrev a : UInt8 := 97
@[match_pattern] abbrev b : UInt8 := 98
@[match_pattern] abbrev e : UInt8 := 101
@[match_pattern] abbrev f : UInt8 := 102
@[match_pattern] abbrev l : UInt8 := 108
@[match_pattern] abbrev n : UInt8 := 110
@[match_pattern] abbrev r : UInt8 := 114
@[match_pattern] abbrev s : UInt8 := 115
@[match_pattern] abbrev t : UInt8 := 116
@[match_pattern] abbrev u : UInt8 := 117
@[match_pattern] abbrev openCurly : UInt8 := 123
@[match_pattern] abbrev closeCurly : UInt8 := 125

end LedgerClient.Ascii
