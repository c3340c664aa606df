/-!
# Example programs

Short programs with comments, by name.
-/

namespace Chip8.Showcase

/-- The example programs. -/
def examples : List (String × List String) :=
  [("Count loop",
    ["6005    ; LD V0, 0x05",
     "7003    ; ADD V0, 0x03",
     "1200    ; JP 0x200"]),
   ("Draw digits",
    ["00E0    ; CLS",
     "6A00    ; LD VA, 0x00   digit",
     "6B02    ; LD VB, 0x02   x",
     "6C02    ; LD VC, 0x02   y",
     "FA29    ; LD F, VA",
     "DBC5    ; DRW VB, VC, 5",
     "7A01    ; ADD VA, 0x01",
     "7B06    ; ADD VB, 0x06",
     "3A0A    ; SE VA, 0x0A",
     "1208    ; JP 0x208",
     "1214    ; JP 0x214"]),
   ("BCD of 234",
    ["60EA    ; LD V0, 0xEA (234)",
     "A300    ; LD I, 0x300",
     "F033    ; LD B, V0",
     "F265    ; LD V2, [I]",
     "F029    ; LD F, V0 (V0 is now 2)",
     "120A    ; JP 0x20A"]),
   ("Subroutine",
    ["2206    ; CALL 0x206",
     "6101    ; LD V1, 0x01",
     "1204    ; JP 0x204",
     "6042    ; LD V0, 0x42",
     "00EE    ; RET"]),
   ("Custom", [])]

/-- The text of an example, empty if there is none of this name. -/
def exampleText (name : String) : String := "\n".intercalate ((examples.lookup name).getD [])

end Chip8.Showcase
