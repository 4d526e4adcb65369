import CodeAudit.Text.Table

/-!
# Quoted text

Messages show a piece of text between quotes: single quotes, unless the text has a single quote and
no double quote. The quote, the backslash and everything that cannot be printed is escaped.
-/

namespace CodeAudit.Text

/-! ## Printable characters -/

/-- Printable characters from U+0080 on. -/
def printableRuns : Array Table.Run := Table.readRuns
  "a6B1s02546101J1hO1W62WI221WN8Q45HL1b51WG2WR2Y7EWR2WH2E1R201A5U9XB1a517212L1610332821238041142O22
   15412L16111111201441223073107GA218121L16111429121220F32B761217212L1611142821227241142HA115321331
   101131323B4432132060EK5C121M1F28121371122023297L121M19142812137161132911DC121WJ12154F2P121H3N181
   026304510176922CWQ4SW6110141N101M2410152923W1X91W44W71W41E1CW6bB10502h4132610132W9132W1132610132
   E1WP132X42W03P6XN252pJ1R3XQ7L9N9JCC1211CY029696D1A6XQ7WB5X7AU1B4B403WA24BWC4P6A3WU2X21S2A696D2UW
   IXE3WF1YM8WS3E3WS7WB2A8WB5m6252W625271010101U2WL1E1D251I2218HN8WFH12Q1C3W1FW1FZF4qBPALWwD2W01g75
   WD10502WO71EN96161616161616161Z1W3P1XQCbRQB5X01XN2Y95WB1Y01XLCWF1zjS3WN9g6KaS8bG511014OWR396WO8X
   78B6YMBT3XF1A4W11WN9D292Y9ORA5252596161WS4Z1296goBCM4WHdtKgO2YCW76C45P141011111Z0GjA2WM70W1WA6WJ
   1I13441ZA4b3352525223616D12B1P1I111E2DW3YT524WD3XP1C30WGWEZ6S3WHFR4W49T5WB5T1W54DWBa2296W44W44W8
   8WKBB1E16111A1E1611X5f09LA7O51WA18X75201WC11302M1X988WHI115W13Q50X2WO4J2WI1157121S2249787X1W1W74
   B9WM3S2Q5P73C6XIXAWOWJDWJ7WE89eFU1WA1221XGW88WAMPW7RKM9XF4W49WU14DO796WL1H8W79Y21JBH1WCX3610131E
   1A6WR596317212L1611141921222060562634ZFXT14UX989aBWM2W6W3X6B96CJWQ69WNQ2E4MaUWSY7XKC72027111T112
   B99X872WE2ARX98XKDXAdF81WD1DAS3W02L1DXB6111WC3011188965111W5111579f0OaS0FWIDyNY9YH14Bb9Xs1Y5DWYG
   ZbJnOdzFnA7U194XI196T25AX7A9161K5Ir6XSY8XC4WP7GX24B1EbgS8WdSWB8ee7316111eBWE2H38hNXhEYD5C387923Z
   wNWE2M9YMWTcSAW72XB8YILX7ZUJCXO9OZBXM1X8112021231B10161X21327161R131410361fT2eC2rJF41EWZJUc861G2
   61114bRWD3D2941fAUHWQ50We8613111E1bA2FWAXD4941uAX5XEWTb831Q1110201913101060401010121110201010101
   011102316131310191G52141GWL1dMWC4Y6CE2E1E1W5AaIWPSDWC4871E5ZUWVM5F3C3YMCXQ7B40FB4WO896W88T21XGfT
   CD2434369S3A55A967869ZM1WNW69WX7Wij1W1ZeT7c42azQEct1Yc3mEWmIaZ9tWdKcM"

/-- Whether a character can be shown as itself. -/
def isPrintable (c : Char) : Bool :=
  if c.toNat < 0x80 then 0x20 ≤ c.toNat && c.toNat < 0x7f
  else Table.contains printableRuns c.toNat

/-! ## Quoted text -/

/-- A number in lower-case hexadecimal, filled with zeros to a width. -/
def paddedHex (width n : Nat) : List Char :=
  let digits := Nat.toDigits 16 n
  List.replicate (width - digits.length) '0' ++ digits

/-- A number in upper-case hexadecimal, filled with zeros to a width. -/
def paddedHexUpper (width n : Nat) : List Char :=
  (paddedHex width n).map Char.toUpper

/-- How a character stands inside quotes. -/
def quoteChar (quote c : Char) : List Char :=
  if c = quote || c = '\\' then ['\\', c]
  else if c = '\t' then ['\\', 't']
  else if c = '\n' then ['\\', 'n']
  else if c = '\r' then ['\\', 'r']
  else if isPrintable c then [c]
  else if c.toNat < 0x100 then '\\' :: 'x' :: paddedHex 2 c.toNat
  else if c.toNat < 0x10000 then '\\' :: 'u' :: paddedHex 4 c.toNat
  else '\\' :: 'U' :: paddedHex 8 c.toNat

/-- The single quote. -/
def singleQuote : Char := Char.ofNat 0x27

/-- The quote that a text is shown between. -/
def chooseQuote (text : List Char) : Char :=
  if text.contains singleQuote && !text.contains '"' then '"' else singleQuote

/-- A text between quotes. -/
def quoted (text : List Char) : List Char :=
  let quote := chooseQuote text
  quote :: text.flatMap (quoteChar quote) ++ [quote]

/-- A string between quotes. -/
def quotedString (text : String) : String := String.ofList (quoted text.toList)

end CodeAudit.Text
