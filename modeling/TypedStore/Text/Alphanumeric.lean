/-
  TypedStore — letters and numerals.

  These are the characters with the Unicode property of being alphabetic or of
  standing for a number.  The tables list them as ranges of code points, ends
  included, in order; code points that have no character yet may lie inside a
  range.
-/

namespace TypedStore.Text

/-- The ranges of the scripts in the first part of the basic plane. -/
def lettersBasic : List (Nat × Nat) := [
  (0x30, 0x39), (0x41, 0x5A), (0x61, 0x7A), (0xAA, 0xAA), (0xB2, 0xB3), (0xB5, 0xB5), (0xB9, 0xBA),
  (0xBC, 0xBE), (0xC0, 0xD6), (0xD8, 0xF6), (0xF8, 0x2C1), (0x2C6, 0x2D1), (0x2E0, 0x2E4),
  (0x2EC, 0x2EC), (0x2EE, 0x2EE), (0x370, 0x374), (0x376, 0x37D), (0x37F, 0x37F), (0x386, 0x386),
  (0x388, 0x3F5), (0x3F7, 0x481), (0x48A, 0x559), (0x560, 0x588), (0x5D0, 0x5F2), (0x620, 0x64A),
  (0x660, 0x669), (0x66E, 0x66F), (0x671, 0x6D3), (0x6D5, 0x6D5), (0x6E5, 0x6E6), (0x6EE, 0x6FC),
  (0x6FF, 0x6FF), (0x710, 0x710), (0x712, 0x72F), (0x74D, 0x7A5), (0x7B1, 0x7EA), (0x7F4, 0x7F5),
  (0x7FA, 0x7FA), (0x800, 0x815), (0x81A, 0x81A), (0x824, 0x824), (0x828, 0x828), (0x840, 0x858),
  (0x860, 0x887), (0x889, 0x88E), (0x8A0, 0x8C9), (0x903, 0x939), (0x93B, 0x93B), (0x93D, 0x940),
  (0x949, 0x94C), (0x94E, 0x950), (0x958, 0x961), (0x966, 0x96F), (0x971, 0x980), (0x982, 0x9B9),
  (0x9BD, 0x9C0), (0x9C7, 0x9CC), (0x9CE, 0x9E1), (0x9E6, 0x9F1), (0x9F4, 0x9F9), (0x9FC, 0x9FC),
  (0xA03, 0xA39), (0xA3E, 0xA40), (0xA59, 0xA6F), (0xA72, 0xA74), (0xA83, 0xAB9), (0xABD, 0xAC0),
  (0xAC9, 0xACC), (0xAD0, 0xAE1), (0xAE6, 0xAEF), (0xAF9, 0xAF9), (0xB02, 0xB39), (0xB3D, 0xB3E),
  (0xB40, 0xB40), (0xB47, 0xB4C), (0xB57, 0xB61), (0xB66, 0xB6F), (0xB71, 0xB77), (0xB83, 0xBBF),
  (0xBC1, 0xBCC), (0xBD0, 0xBF2), (0xC01, 0xC03), (0xC05, 0xC39), (0xC3D, 0xC3D), (0xC41, 0xC44),
  (0xC58, 0xC61), (0xC66, 0xC6F), (0xC78, 0xC7E), (0xC80, 0xC80), (0xC82, 0xC83), (0xC85, 0xCB9),
  (0xCBD, 0xCBE), (0xCC0, 0xCC4), (0xCC7, 0xCCB), (0xCD5, 0xCE1), (0xCE6, 0xCF2), (0xD02, 0xD3A),
  (0xD3D, 0xD40), (0xD46, 0xD4C), (0xD4E, 0xD4E), (0xD54, 0xD61), (0xD66, 0xD78), (0xD7A, 0xD7F),
  (0xD82, 0xDC6), (0xDCF, 0xDD1), (0xDD8, 0xDF3), (0xE01, 0xE30), (0xE32, 0xE33), (0xE40, 0xE46),
  (0xE50, 0xE59), (0xE81, 0xEB0), (0xEB2, 0xEB3), (0xEBD, 0xEC6), (0xED0, 0xF00), (0xF20, 0xF33),
  (0xF3E, 0xF6C), (0xF7F, 0xF7F), (0xF88, 0xF8C), (0x1000, 0x102C), (0x1031, 0x1031),
  (0x1038, 0x1038), (0x103B, 0x103C), (0x103F, 0x1049), (0x1050, 0x1057), (0x105A, 0x105D),
  (0x1061, 0x1070), (0x1075, 0x1081), (0x1083, 0x1084), (0x1087, 0x108C), (0x108E, 0x109C),
  (0x10A0, 0x10FA), (0x10FC, 0x135A), (0x1369, 0x138F), (0x13A0, 0x13FD), (0x1401, 0x166C),
  (0x166F, 0x167F), (0x1681, 0x169A), (0x16A0, 0x16EA), (0x16EE, 0x1711), (0x1715, 0x1731),
  (0x1734, 0x1734), (0x1740, 0x1751), (0x1760, 0x1770), (0x1780, 0x17B3), (0x17B6, 0x17B6),
  (0x17BE, 0x17C5), (0x17C7, 0x17C8), (0x17D7, 0x17D7), (0x17DC, 0x17DC), (0x17E0, 0x17F9),
  (0x1810, 0x1884), (0x1887, 0x18A8), (0x18AA, 0x191E), (0x1923, 0x1926), (0x1929, 0x1931),
  (0x1933, 0x1938), (0x1946, 0x19DA), (0x1A00, 0x1A16), (0x1A19, 0x1A1A), (0x1A20, 0x1A55),
  (0x1A57, 0x1A57), (0x1A61, 0x1A61), (0x1A63, 0x1A64), (0x1A6D, 0x1A72), (0x1A80, 0x1A99),
  (0x1AA7, 0x1AA7), (0x1B04, 0x1B33), (0x1B35, 0x1B35), (0x1B3B, 0x1B3B), (0x1B3D, 0x1B41),
  (0x1B43, 0x1B59), (0x1B82, 0x1BA1), (0x1BA6, 0x1BA7), (0x1BAA, 0x1BAA), (0x1BAE, 0x1BE5),
  (0x1BE7, 0x1BE7), (0x1BEA, 0x1BEC), (0x1BEE, 0x1BEE), (0x1BF2, 0x1BF3), (0x1C00, 0x1C2B),
  (0x1C34, 0x1C35), (0x1C40, 0x1C7D), (0x1C80, 0x1CBF), (0x1CE1, 0x1CE1), (0x1CE9, 0x1CEC),
  (0x1CEE, 0x1CF3), (0x1CF5, 0x1CF7), (0x1CFA, 0x1DBF), (0x1E00, 0x1FBC), (0x1FBE, 0x1FBE),
  (0x1FC2, 0x1FCC), (0x1FD0, 0x1FDB), (0x1FE0, 0x1FEC), (0x1FF2, 0x1FFC), (0x2070, 0x2079),
  (0x207F, 0x2089), (0x2090, 0x209C), (0x2102, 0x2102), (0x2107, 0x2107), (0x210A, 0x2113),
  (0x2115, 0x2115), (0x2119, 0x211D), (0x2124, 0x2124), (0x2126, 0x2126), (0x2128, 0x2128),
  (0x212A, 0x212D), (0x212F, 0x2139), (0x213C, 0x213F), (0x2145, 0x2149), (0x214E, 0x214E),
  (0x2150, 0x2189), (0x2460, 0x249B), (0x24B6, 0x24FF), (0x2776, 0x2793), (0x2C00, 0x2CE4),
  (0x2CEB, 0x2CEE), (0x2CF2, 0x2CF3), (0x2CFD, 0x2CFD), (0x2D00, 0x2D6F), (0x2D80, 0x2DDE),
  (0x2E2F, 0x2E2F)]

/-- The other ranges. -/
def lettersOther : List (Nat × Nat) := [
  (0x3005, 0x3007), (0x3021, 0x3029), (0x302E, 0x302F), (0x3031, 0x3035), (0x3038, 0x303C),
  (0x3041, 0x3096), (0x309D, 0x309F), (0x30A1, 0x30FA), (0x30FC, 0x318E), (0x3192, 0x3195),
  (0x31A0, 0x31BF), (0x31F0, 0x31FF), (0x3220, 0x3229), (0x3248, 0x324F), (0x3251, 0x325F),
  (0x3280, 0x3289), (0x32B1, 0x32BF), (0x3400, 0x4DBF), (0x4E00, 0xA48C), (0xA4D0, 0xA4FD),
  (0xA500, 0xA60C), (0xA610, 0xA66E), (0xA67F, 0xA69D), (0xA6A0, 0xA6EF), (0xA717, 0xA71F),
  (0xA722, 0xA788), (0xA78B, 0xA801), (0xA803, 0xA805), (0xA807, 0xA80A), (0xA80C, 0xA824),
  (0xA827, 0xA827), (0xA830, 0xA835), (0xA840, 0xA873), (0xA880, 0xA8C3), (0xA8D0, 0xA8D9),
  (0xA8F2, 0xA8F7), (0xA8FB, 0xA8FB), (0xA8FD, 0xA8FE), (0xA900, 0xA925), (0xA930, 0xA946),
  (0xA952, 0xA953), (0xA960, 0xA97C), (0xA983, 0xA9B2), (0xA9B4, 0xA9B5), (0xA9BA, 0xA9BB),
  (0xA9BE, 0xA9C0), (0xA9CF, 0xA9D9), (0xA9E0, 0xA9E4), (0xA9E6, 0xAA28), (0xAA2F, 0xAA30),
  (0xAA33, 0xAA34), (0xAA40, 0xAA42), (0xAA44, 0xAA4B), (0xAA4D, 0xAA59), (0xAA60, 0xAA76),
  (0xAA7A, 0xAA7B), (0xAA7D, 0xAAAF), (0xAAB1, 0xAAB1), (0xAAB5, 0xAAB6), (0xAAB9, 0xAABD),
  (0xAAC0, 0xAAC0), (0xAAC2, 0xAADD), (0xAAE0, 0xAAEB), (0xAAEE, 0xAAEF), (0xAAF2, 0xAAF5),
  (0xAB01, 0xAB5A), (0xAB5C, 0xAB69), (0xAB70, 0xABE4), (0xABE6, 0xABE7), (0xABE9, 0xABEA),
  (0xABEC, 0xABEC), (0xABF0, 0xD7FB), (0xF900, 0xFB1D), (0xFB1F, 0xFB28), (0xFB2A, 0xFBB1),
  (0xFBD3, 0xFD3D), (0xFD50, 0xFDC7), (0xFDF0, 0xFDFB), (0xFE70, 0xFEFC), (0xFF10, 0xFF19),
  (0xFF21, 0xFF3A), (0xFF41, 0xFF5A), (0xFF66, 0xFFDC), (0x10000, 0x100FA), (0x10107, 0x10133),
  (0x10140, 0x10178), (0x1018A, 0x1018B), (0x10280, 0x102D0), (0x102E1, 0x10375),
  (0x10380, 0x1039D), (0x103A0, 0x103CF), (0x103D1, 0x10563), (0x10570, 0x105BC),
  (0x10600, 0x107BA), (0x10800, 0x10855), (0x10858, 0x10876), (0x10879, 0x1091B),
  (0x10920, 0x10939), (0x10980, 0x10A00), (0x10A10, 0x10A35), (0x10A40, 0x10A48),
  (0x10A60, 0x10A7E), (0x10A80, 0x10AC7), (0x10AC9, 0x10AE4), (0x10AEB, 0x10AEF),
  (0x10B00, 0x10B35), (0x10B40, 0x10B91), (0x10BA9, 0x10BAF), (0x10C00, 0x10D23),
  (0x10D30, 0x10D39), (0x10E60, 0x10EA9), (0x10EB0, 0x10EB1), (0x10F00, 0x10F45),
  (0x10F51, 0x10F54), (0x10F70, 0x10F81), (0x10FB0, 0x11000), (0x11002, 0x11037),
  (0x11052, 0x1106F), (0x11071, 0x11072), (0x11075, 0x11075), (0x11082, 0x110B2),
  (0x110B7, 0x110B8), (0x110D0, 0x110F9), (0x11103, 0x11126), (0x1112C, 0x1112C),
  (0x11136, 0x1113F), (0x11144, 0x11172), (0x11176, 0x11176), (0x11182, 0x111B5),
  (0x111BF, 0x111C4), (0x111CE, 0x111CE), (0x111D0, 0x111DA), (0x111DC, 0x111DC),
  (0x111E1, 0x1122E), (0x11232, 0x11233), (0x11235, 0x11235), (0x11280, 0x112A8),
  (0x112B0, 0x112DE), (0x112E0, 0x112E2), (0x112F0, 0x112F9), (0x11302, 0x11339),
  (0x1133D, 0x1133F), (0x11341, 0x11363), (0x11400, 0x11437), (0x11440, 0x11441),
  (0x11445, 0x11445), (0x11447, 0x1144A), (0x11450, 0x11459), (0x1145F, 0x114B2),
  (0x114B9, 0x114B9), (0x114BB, 0x114BE), (0x114C1, 0x114C1), (0x114C4, 0x114C5),
  (0x114C7, 0x114D9), (0x11580, 0x115B1), (0x115B8, 0x115BB), (0x115BE, 0x115BE),
  (0x115D8, 0x115DB), (0x11600, 0x11632), (0x1163B, 0x1163C), (0x1163E, 0x1163E),
  (0x11644, 0x11659), (0x11680, 0x116AA), (0x116AC, 0x116AC), (0x116AE, 0x116AF),
  (0x116B6, 0x116B6), (0x116B8, 0x116B8), (0x116C0, 0x1171A), (0x11720, 0x11721),
  (0x11726, 0x11726), (0x11730, 0x1173B), (0x11740, 0x11746), (0x11800, 0x1182E),
  (0x11838, 0x11838), (0x118A0, 0x11938), (0x1193D, 0x1193D), (0x1193F, 0x11942),
  (0x11950, 0x11959), (0x119A0, 0x119D3), (0x119DC, 0x119DF), (0x119E1, 0x119E1),
  (0x119E3, 0x11A00), (0x11A0B, 0x11A32), (0x11A39, 0x11A3A), (0x11A50, 0x11A50),
  (0x11A57, 0x11A58), (0x11A5C, 0x11A89), (0x11A97, 0x11A97), (0x11A9D, 0x11A9D),
  (0x11AB0, 0x11AF8), (0x11C00, 0x11C2F), (0x11C3E, 0x11C3E), (0x11C40, 0x11C40),
  (0x11C50, 0x11C6C), (0x11C72, 0x11C8F), (0x11CA9, 0x11CA9), (0x11CB1, 0x11CB1),
  (0x11CB4, 0x11CB4), (0x11D00, 0x11D30), (0x11D46, 0x11D46), (0x11D50, 0x11D8E),
  (0x11D93, 0x11D94), (0x11D96, 0x11D96), (0x11D98, 0x11DA9), (0x11EE0, 0x11EF2),
  (0x11EF5, 0x11EF6), (0x11FB0, 0x11FD4), (0x12000, 0x12399), (0x12400, 0x1246E),
  (0x12480, 0x12543), (0x12F90, 0x12FF0), (0x13000, 0x1342E), (0x14400, 0x14646),
  (0x16800, 0x16A69), (0x16A70, 0x16AED), (0x16B00, 0x16B2F), (0x16B40, 0x16B43),
  (0x16B50, 0x16B8F), (0x16E40, 0x16E96), (0x16F00, 0x16F4A), (0x16F50, 0x16F87),
  (0x16F93, 0x16F9F), (0x16FE0, 0x16FE1), (0x16FE3, 0x16FE3), (0x16FF0, 0x18D08),
  (0x1AFF0, 0x1B2FB), (0x1BC00, 0x1BC99), (0x1D165, 0x1D166), (0x1D16D, 0x1D172),
  (0x1D2E0, 0x1D2F3), (0x1D360, 0x1D378), (0x1D400, 0x1D6C0), (0x1D6C2, 0x1D6DA),
  (0x1D6DC, 0x1D6FA), (0x1D6FC, 0x1D714), (0x1D716, 0x1D734), (0x1D736, 0x1D74E),
  (0x1D750, 0x1D76E), (0x1D770, 0x1D788), (0x1D78A, 0x1D7A8), (0x1D7AA, 0x1D7C2),
  (0x1D7C4, 0x1D7FF), (0x1DF00, 0x1DF1E), (0x1E100, 0x1E12C), (0x1E137, 0x1E14E),
  (0x1E290, 0x1E2AD), (0x1E2C0, 0x1E2EB), (0x1E2F0, 0x1E2F9), (0x1E7E0, 0x1E8CF),
  (0x1E900, 0x1E943), (0x1E94B, 0x1E959), (0x1EC71, 0x1ECAB), (0x1ECAD, 0x1ECAF),
  (0x1ECB1, 0x1ECB4), (0x1ED01, 0x1ED2D), (0x1ED2F, 0x1ED3D), (0x1EE00, 0x1EEBB),
  (0x1F100, 0x1F10C), (0x1F130, 0x1F149), (0x1F150, 0x1F169), (0x1F170, 0x1F189),
  (0x1FBF0, 0x1FBF9), (0x20000, 0x2EBE0), (0x2F800, 0x2FA1D), (0x30000, 0x3134A)]

/-- Whether a character is a letter or a numeral. -/
def isLetterOrNumeral (c : Char) : Bool :=
  (if c.toNat < 0x3000 then lettersBasic else lettersOther).any fun r =>
    r.1 ≤ c.toNat && c.toNat ≤ r.2

end TypedStore.Text
