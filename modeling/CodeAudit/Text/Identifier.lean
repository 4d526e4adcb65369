import CodeAudit.Text.Table

/-!
# Identifiers, digits and words

The characters that may start an identifier and those that may continue one, for languages whose
identifiers follow the Unicode recommendation.
-/

namespace CodeAudit.Text

/-- Characters from U+0080 on that may start an identifier. -/
def identifierStartRuns : Array Table.Run := Table.readRuns
  "aF0A0405M1U1jN4BE47010Z541132106012101J1XK1ZE8aA1W6206W9X9Q43WEWBW411Y510F171A220G01TTXQB0OW1914
   05L409030NO7A5N15HWAWRWM30I079FF47212L16103330G0D112E1A085412L16111111W0310J2G8121L16111430I0F1N
   0B7212L16111430U112F0H015321331101131323BM0WL7121M1F30Q22021U047121M191430W0111F1H8121W920G05282
   O55H3N181026WRWG10D6WR110141N101910A02410L3W10X171W4R4YMWBK0G5433031724CC0HW610502WB1fM132610132
   W9132W1132610132E1WP132X4W6FGXN253oU2G1P5XC3A7HDIEHEC12FWKW4040X5XQ7W9105X7AUWIT24BWC4PWNM9WLXK0
   Y0WFH7WNTD1AWCQW4WA2AW4287WB22WA31511305b5X2dT252W625271010101U2WL1610321633254C5216YN0D0GCY8040
   2910256010101F235440HW9XtDcB6331CW610502WO70GM9616161616161616mN2P874244XN621XR135WB1Y0HW0WHFlGb
   vJX2sWMX5WE2dK3FA1KWFGU2XHW882Y92X1511014OF12131MTWKEWIX053011BRAMPS7WFS0G419A41W9N217KM303WI103
   1242010O22A72C5252596161WB1D6YLTgoBCM4WHdtKgO2YCW76C450191C141011111YEW2ZE6c0IX12WMW99YQ01030101
   0101Z1W5P6PBWO2U35252522W4B1P1I111E2DW3YTX7WLdJS3WHWGW0DT5W6AT2W44714WBa2IW44W44W88WKCA1E16111A1
   E1611X5f09LA7O51WA18X75201WC11302MAM9UX3I11ALAPX8WO61X20F3121SWBS3SW471RRWMALAIDHYHXAWOWJDWJDW4g
   7WA61XGSA08LWBHWFKRMCWLWQ120DWDW1OQW4T0208W330CWGE3L010W4H1OXM610131E197WFW77212L16111430I0C4a3W
   LI3K2UWGK110aTWFWA3W5WGK0WSWBD0X9QW66aUWCYNX1W072027111NF010Y172W7G010S0AW870L0BWEJ0IXAdF81W5H0W
   ITYJ6111W6L0P5111W0E0fHIb30XHyMY9YHHb9Xs1Y3FWYGZbJnOdzFnA7UHXGHTIWGG3W0K5Ir6X1Z4XC50X4CX2110SbgS
   8WdSWB8ee7316111eBWE2H38hNXhEYD5C3879bc7XM1X8112021231B10161X21327161R131410361fT2O1O1U1O1U1O1U1
   O1U1O17WxFUkGWDA6G0fBTIWCWeS613111E1bAWSX570WcQ31Q1110201913101060401010121110201010101011102316
   131310191G52141GZnIWij1W1ZeT7c42azQEct1Yc3mEWmIaZ9"

/-- Further characters from U+0080 on that may continue one. -/
def identifierMarkRuns : Array Table.Run := Table.readRuns
  "aS0nQYIN0d34dHWD10111110XAAWHU60Y8625211329N0UQXTAF9W2890O3181214WC2WT7WBN1W1WN21H16A129H2WP0162
   12290A129E022WP014412230KB30B2WP0171212K129A512WP016212272A129I0WS4321390E9G4WO016121371B129H2WP
   016121371B129G3WO116121390A129H2X804510176921WU017C719XP019B529X0169B0101041WIJ115A1W490Y7J19C34
   2122633DB1ErL298yT3S2T1U1X2W09029W221AZJ0YPB4BA9Z4AWT4WQ91S2A69MD1FWI4WGGB9H8C2UC29WDDWHJ8969YP2
   1K406022bCX1nH1J0YUC403BYb12ZH0Y3W0mR5YC1WVeF9X7049W11XI1dO03040N440XL1WJHA96HDAS7PCWD3WGDF9B0A9
   WGDC08129W22WJ012215110WA451cJ71129qXH0sOFGF31O2b69W60Y11oG0c90ZP4eE9Wi321153W9240aA1nF389gS1ZTA
   WI3YT2WMEW0A21A3WEA70WE962W5D1951WD0C2WHD831BXKB60a5B5963WO116212290A12634b6H9940XJJC9bR628R1XKG
   F9XJC89XLE49cPEaA9X8511231011C9YQ62630S9W9613809AWFFi2717G9WPL1DYT53011161089WH4111489fJ3pXN9XO9
   W74WS6P9WWL01WN73XJ0B1pi41ZwOWE2MmF4358726U3ZO2WjMWIlGWN4WI80E0M41EWhR61G261114dD699gF0WUDWm66YG
   659ZyF9viq8cM"

/-- Whether an identifier may start with this character. -/
def isIdentifierStart (c : Char) : Bool :=
  if c.toNat < 0x80 then c.isAlpha || c == '_' else Table.contains identifierStartRuns c.toNat

/-- Whether an identifier may go on with this character. -/
def isIdentifierPart (c : Char) : Bool :=
  if c.toNat < 0x80 then c.isAlphanum || c == '_'
  else Table.contains identifierStartRuns c.toNat || Table.contains identifierMarkRuns c.toNat

/-! ## Decimal digits -/

/-- The zeros of the decimal digits from U+0080 on. -/
def digitZeros : Array Table.Run := Table.readRuns
  "WqK0ZJ0bL0iI0Z30Z30Z30Z30Z30Z30Z30Z30Z30YC0Z30XH0e80XH0WyB0WG0eU0ZD0aK0F0b50Y20ZJ0F0War10r50WG0b
   L0W00Y20iC0rZD0WjS0XdL0vF0ZD0X70ZT0e80gA0Z30hB0YI0YI0iS0YI0tN0d70XH0piO0Y20ZJ0xwS090909090XjL0iS
   0WqJ0ZyO0"

/-- The value of a decimal digit of any script. -/
def digitValue? (c : Char) : Option Nat :=
  if c.toNat < 0x80 then (if c.isDigit then some (c.toNat - 48) else none)
  else (digitZeros.find? fun z => z.lo ≤ c.toNat && c.toNat < z.lo + 10).map (c.toNat - ·.lo)

/-- Whether a character is a decimal digit of any script. -/
def isDecimal (c : Char) : Bool := (digitValue? c).isSome

/-- Whether a character is a hexadecimal digit. -/
def isHexDigit (c : Char) : Bool :=
  c.isDigit || ('a' ≤ c && c ≤ 'f') || ('A' ≤ c && c ≤ 'F')

/-- The value of a hexadecimal digit. -/
def hexValue (c : Char) : Nat :=
  if c.isDigit then c.toNat - 48 else if 'a' ≤ c then c.toNat - 87 else c.toNat - 55

/-- The value of a character, if it is a hexadecimal digit. -/
def hexDigit? (c : Char) : Option Nat := if isHexDigit c then some (hexValue c) else none

/-! ## Word characters -/

/-- Numeric characters from U+0080 on, and the letters that no identifier starts with. -/
def numericRuns : Array Table.Run := Table.readRuns
  "aN15022rH0sS9ZA9bC9i99YP945YF9YP9YP925YHCYM986YA9YB67IYG9X50S9XR0S9X8JdK9X89s6JWa7969M9eL9Z4AaA9
   69aR9XO9ZA969WXN03569bCFWA0sDWSXGLpATWiL0eQ0wT3ZE9U71EW19W8EzrO9lM5ZU9W79bC9M9XO9i39qhR5i31YN010
   101010101010ZL9Z81gIWDX33H1g0QW53h89zC7P6W88XD4M5a512F2WEX28WL1U2XD4YB7O7WA6fK5WH9eFUa39WB3YJ6ZA
   TZ49WT9ZK97Jd39g19YP9h29Y99Y9BiHIY09tEScA9X89m7KovI9XO9ZA916uNMvr5JYFOWZOWIXjC9iJ9WlS8Z49uGWR121
   3XEWD1EWV1CXwS9"

/-- Signs that are no letters, though an identifier may start with one. -/
def isStartingSign (c : Char) : Bool := [0x1885, 0x1886, 0x2118, 0x212E].contains c.toNat

/-- Letters, numeric characters and the underscore. -/
def isWord (c : Char) : Bool :=
  if c.toNat < 0x80 then c.isAlphanum || c == '_'
  else isIdentifierStart c && !isStartingSign c || Table.contains numericRuns c.toNat

end CodeAudit.Text
