import CodeAudit.Text.Table

/-!
# Upper and lower case

Full case mapping: a character may become several, and the lower case of the capital sigma depends
on its neighbours (it is the final form at the end of a word).
-/

namespace CodeAudit.Text

/-- Lower case from U+0080 on. -/
def lowerEntries : Array Table.Entry := Table.readEntries
  "b50MjE.106WH.W21NI.13eOWo0.112i1.217E.21MW3.12ZR.012cT.32j0iC.124.12iBi4.12i92i2.22a7d04hT.12i96
   .12C1iA.32iP6.126.012iK.12jCiS.12j4.22iO.12j4iS.12j22iQ.124.12j6iU.328.72I0.1260.126.0180.218W7.
   22W90.124.12b5XM.01JYN.12aQ.118dI.72rkTrj9.12fDrtQ.22riU.12hFm36.014ZD.eA2o7.124.328.82d0.62ZH.1
   022.12X0.1222.10GWQ.108W5.W42W9.81B4.52X3.22Z4.12BI.202d7.00FiN.00W0X1.WH1GY5.91QXM.12ZC.016P.21
   WGU.20W6e9.YV60W6qYC.12XG.52C.s90XHXadB.005XnqK.Xe10WBWq3.202XS.fA1XCbxU.92kl4.11WGkvF.907b4.805
   W1.A07W1.807W1.805W1.B13W3.807U.O07X2.807W1.807W1.82W12Z52Z8.B03Z5.02a7.B2Q2aQ2.C2bO2bJ2bQ.B2c02
   62cJ.eI2kV4.32WtIcR.62md9.WE0FX6.J2W9.vC0PWsE.WxB0WGYxP.WH2Y5.12rg0ji3jgS.212rfA.12ri4X2X34.12ri
   P.226.82rk62.01WIrkR.82bS.124.42A.WWeM1MXXoF.J1DZ4.ZB16fE.31UW1.A2ZI.124.12XglC.014XglJ.42Q.12Xu
   zK.22XvV0.124.3198.12XvV9JAM3.12YBWEWDXwwE.017WxM.12X3Xuy9jhMXgoU.124.62E.52C.124.S2WR.sbQ0PWkkN
   .WdC0W8XnU.ZC0W4gB.a10AhA.10EO.106W1.12G2.Wv30WJYrR.YaF0W0bh6.rt20W0Wjo6.WWpK0W2XYhF"

/-- Upper case from U+0080 on. -/
def upperEntries : Array Table.Entry := Table.readEntries
  "aP2WxJ.WA3Ws7aB.00Mc1.106WH.02fA.11NcM.12gO.112k1.217E.03tUa1.11MsQ.212Y1.02nTWW0.22hD.124.226.3
   28.52C.22bG.32b1fK.32WQ.212d7.22E.42A.226.328.124.226.328.12YP.52Y80.1260.1260.1176.02Z1.118a5.0
   3v1WoA.12w90.126.31J8.318XM.82WJ.22rl02.12rkK.414A.02rjA36rw2A.1262.12A.122XvkD.32Xvk6Xvk9.12Xvk
   6.12Xvi7WR.12XvjR1Xvk7XYqBXYqA.22XvjN.12ru7ru4.224.72rtC.22rsS.12XvkLXvkE.32Xvj6XviQeLeE2eF.52e4
   .A2XviB3.aB2Xui3.WC2XJ.124.328.302dM.I4bDWo2WnJ.R2W6.0024.04WRWo2WnJ.00GW8.02W5.0080.02WE42.126C
   .32SBY1.11BI.02YUEaLcQ.12WD.22bA.226.WL0W0WD.00FW0.11Gb6.91QXM.216YH.021.11WGW1.WI0W6b8.038XuR.Y
   V50WBhiN.202XS.tG05ZqA.Xd82dj14K620GYJXtd2.cN2oP.32XYn4.G2XYrR.YL1XCXghE.03kuPWqMOXJ6440WGZR.02l
   WF.51WGZ4.007bM.805W1.A07W1.807W1.805W1.A3jrDWoO.02jsH.04jsGWoOWnH.02jsL.04jsKWoOWnJ.02jsP.04jsO
   WoOWrP.02jsT.807I.82a92.003Q.02W52WR2T2U2.23kKWxD20202020202020D020202020202020WJ020202020202020
   D020202020202020YL020202020202020D020202020202020.02ZM2.032WxDkV20L0.13MaI.0400WxD.430aJ.12G.33k
   VJWxDkVM0R0.13SaI.0400WxD.430aJ.32kWK2.04kWHWo2WnH002.230YN.040YMWrP.82kXH2.04kWPWo2WnH002.037M.
   02kX9.03kX0WrP.040YMWrP.A3kXTeBkXK0WK0.13WLaI.0400WxD.430aJ.fR2krP.W20FXU.42X8.w60PWqQ.Wy20WGYwC
   .12b6.32rj38.112rjA.62M.226.A1WIM.82bS.124.42A.C0W6kXM.12XG.52C.WWcQ1MXmoA.J1DZ4.ZB16fE.31UW1.A2
   ZI.124.2146.42Q.42A.124Y7.219XT.B17WT.42W7.124.62E.52C.124.S2WR.wN2Z7.S0XHXlwI.qYE3feIZG0606.040
   BZM006.03QS00.C3XoJXoL0W20CKMJH.WYB0PZeYO.WdK0W8XnE.ZC0W4gB.a00AhC.10EO.106W1.12G2.WvS0WJYq8.YZE
   0W0bj8.rt20W0Wjo6.WWpM0W2XYhB"

/-- Cased characters from U+0080 on. -/
def casedRuns : Array Table.Run := Table.readRuns
  "aF0A0405M1U1b8134bL1W471U4Y30WB32123106012101J1XK1ZE8aA1W69W9XyIW610502WB22qLXN25Xd887WB22X2b5X2
   dT252W625271010101U2WL1610321633254C5216YN0D0GCY8040291034601010131540235440HW031vBWKWwGcB6331CW
   61050WWcPWEITZ8Y8331WR511014R112vFWB1C7XHqYE6C4WXAP6PWcBXHY3W44W4YNA1E16111A1E1611jH0221WA18WdCW
   JDWJYYDX1rs1X1wW6XM1X8112021231B10161X21327161R131410361fT2O1O1U1O1U1O1U1O1U1O17WxF91JXoIX5XYDP6
   P6P"

/-- Characters from U+0080 on that casing looks through. -/
def caseIgnorableRuns : Array Table.Run := Table.readRuns
  "aD040104021l7b541409110d36bL050WIWD10111110WD0B5AA10W40AKG0Y871913W2010UQXTAWRA4020ONWC2WD07167W
   AWQWO010474036A1D0F0WR04380K1Q021WQ041412230U130B1WQ0441140K1M510WR020138071B1U0WU0C0WJ030WO0125
   21371B1T0WR0206051K1S1WQ14380K1T0XA07210XS026B8Y50289015XC1R01010WOD14115A1W490Y93151121P142G3D0
   2160F0Y10oJ2zG2T1U1U1X2116802A3050WE4WK0X31W30YP2419062c2120WR0161010276920W808UWI3WH0141050W98C
   1W132112WP0113012WR721X25XK21C16406031WJX0D0W3Y7jB012B2D2D2D1C481A02024WI41910D0GCWKW1YXA1YK2Z10
   F0Y3W0WG0k40W533450Y05Y02ynB0WeA5dM0Y531910S3XI1EW2XG0N2YA231803040P150ZR1QHD0W77PAWF2WH02321H0L
   1X452121C080W40B0WK012215110R0E15110Y7492YS02040qXT0ZNGnFF30CFW3020aE07060B0W4010WG0WE1X50L2lH0c
   90ZP4WX651WA18nO21153W9240aA1nF3hF1ZTAWI3YU0WNEWA021A2WI3212040A0WJ2W5417X00C1WL8A320Y22201160a5
   037L1WQ130W6634b972210N0XM5104111cL36111R1XN72011YD0102510Y822314dB811d811040ZK32140W19W95238095
   22WFC11i361510XKL261111YT530111610XA13010g61apA8jmQ4WS693WXC0X1GX2111mWR31611Yg6113ZwJWE2MmH29F2
   6U3ZO2XWQWN4WI80E0M41EWhR61G261114dDDgR0WU3WmG6YG7Xv74vklS0UY2Z4cM"

/-- Whether a character has case. -/
def isCased (c : Char) : Bool :=
  if c.toNat < 0x80 then c.isAlpha else Table.contains casedRuns c.toNat

/-- Whether casing looks through a character to its neighbour. -/
def isCaseIgnorable (c : Char) : Bool :=
  if c.toNat < 0x80 then [0x27, 0x2e, 0x3a, 0x5e, 0x60].contains c.toNat
  else Table.contains caseIgnorableRuns c.toNat

/-- Whether the first character that casing does not look through has case. -/
def meetsCased (text : List Char) : Bool :=
  match text.dropWhile isCaseIgnorable with
  | [] => false
  | c :: _ => isCased c

/-- The upper case of one character. -/
def upperChar (c : Char) : List Char :=
  if c.toNat < 0x80 then [c.toUpper]
  else match Table.lookup? upperEntries c.toNat with
    | some targets => targets.map Char.ofNat
    | none => [c]

/-- The lower case of one character, apart from its neighbours. -/
def lowerChar (c : Char) : List Char :=
  if c.toNat < 0x80 then [c.toLower]
  else match Table.lookup? lowerEntries c.toNat with
    | some targets => targets.map Char.ofNat
    | none => [c]

/-- The upper case of a text. -/
def upper (text : List Char) : List Char := text.flatMap upperChar

/-- Lower case, with the text already passed in reverse order. -/
def lowerAfter (passed : List Char) : List Char → List Char
  | [] => []
  | c :: rest =>
    let mapped :=
      if c = 'Σ' then
        if meetsCased passed && !meetsCased rest then ['ς'] else ['σ']
      else lowerChar c
    mapped ++ lowerAfter (c :: passed) rest

/-- The lower case of a text. -/
def lower (text : List Char) : List Char := lowerAfter [] text

end CodeAudit.Text
