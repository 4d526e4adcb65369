import CodeAudit.Text.Table

/-!
# Compatibility normal form of identifiers

Two identifiers are the same name when their compatibility-composed normal forms agree: every
character is taken apart into its compatibility pieces, the marks after each base are put into
canonical order, and the pieces are composed again. The tables hold the identifier characters
only, since nothing else occurs in an identifier; Hangul syllables are computed.
-/

namespace CodeAudit.Text.Normal

/-- Full compatibility decompositions of the characters that are not composed of a pair. -/
def pieceEntries : Array Table.Entry := Table.readEntries
  "aE2b8.A2WtD.42WsF.YQ3XDZOX2X2.B3WQZUX20.83Wc6ZL.WM2WbM.X64Y0aPWoA0X20X200.03WGY20X2X20WSX10X2X20
   .W53XLW00X2X20.b228WWSWWNGWXF4CWXK4.W82WVJWWDEAWYS.XT2bS2.12W5.03LWnJ.WG2a2.I2WX4.XA2Wn7CW6.22X4
   B.P2BE2.12XLWR.32W4.hP3y1XxU.cK3hGkJX40d60d10.sM3Wk4WjT2020A0A020I080.Z03cBd820.13Q0.XL3dEd8.23C
   0.W33X5020A0.23U0.d53kRlG20.sC3WqAWmS.Z33d8d8.W93X5WI0G.Y83eNmT.93K0.43A0.43A0.43A0.C3WM3.93Y5Z9
   .1304Z6O.040Tdd0.032U.040Tdd0.73Z7U.H3X4YH.93K0.43A0.43A0.43A0.C3WM3.fC2qD.YcJ2dv7dIdF.1242q7.00
   7q2.12Gz4z14424KWVT2jbQkcN42WW842WW9.1284jAj5WV9jcT2kd682kd9jbJWWHkdN.002im9.02W92WtII62WrD2SA2.
   D2cJ.W32WVKWVSWW4s0sFWWBWWI48.0026.02ji5jeMY2jiFjf7XT1.0034.02CK2iSjA2jZQjZN2WY5.002WYE.02o3.c13
   Wt4Wj9.bS3WsMZA.1380.1340.1340.13C0.13C0.1380.WU3YI0.22XI.A3X9WnJ.1340.74X6EWnJ.73X1D.74XQEWnJ.7
   3X1D.D3B0.13K0.YO2WrK.D2A.G2P8KIWV1WW1.0036.02A62.Y82Y4.42qF.22o4WU00X2hAj906X2.12WS.3024.0240.6
   2G.12WsK.12WsJ.12T.03JWo6.0222.12X6X12.12EX6.003XvQ.02Xw6.22Wt5PX1Q.52WtEX2282.M2X3.030ZM.0400ZM
   .030Q.02Q.030ZM.0400ZM.05000ZM.03PU.02U.030ZM.0400ZM.02NH2IWP.030bO.0400bO.030Q.02Q.030bO.0400bO
   .05000bO.03PU.02U.030bO.0400bO.02NH2I.XxM25W8.cO2szT.rU2paH62.Y73nkMuvL.Y23XOZ0.WI2lwG2fSfPfU2.0
   02fT.005g5.02eK.002W8.02WN.009WG.00KaL.021ZR2gF284A84h5hE4hF244284.0044.02E8KEAfK2.002eU.02XS26I
   24K6.WVaJ2cY94.bO2XtxC.Z52XwX06M.32iNXS.wT2XvfQXa3XwxQXwzJ.92XwxC.ppM2XggOowFqbTWX4kyRmgNYW4WefG
   0WbiTzY5WWYMXV0ZoBfwNZvEYn3tEpGZWBplLWp5WzPWnRdrCcVJZlQWeaQXoNhm3Yt3fqFhsDWYl9ex9gpDWx9pmIllUYfL
   rVJZi3YgEXz0kwGWYt5Wa6o1elJYc2YvHXmTZvAYbDaHZW3ZxUXd0Wg0oy5kLXb6YdNdYHbYJfjLvo6YdFkoSXb0cl0YhPfo
   PaiIWXXUWwEce4XVCoTcl9m1huLWZyBtg5tw0W0qjPWy0YeCevPauTqq1YuSmmOWWgKcdTXbQfgBWVHne8paPqz0djQegPlg
   PYx0hnQrW8Xj2lf0cXBYhBljToZTnrJaXGlzSlpDejFpoCWj3b6hY7fvSXyBZjGYrDWXk1qFXsNXxCYp3aiQZwFkaSXl8XbU
   YHWenFfs3XkFoZ7vX3WpBc7WgUao0WZFWrLXtOXbOWeUcv1aiNaz3Wq2WYrPe1WYMjy5ht0WVFsgLoBWw6ZgDduHZq2ojSZe
   FXoDz4WdBfiFgPayQg3em4XlIa9iDWcp7riThtOXpQxq6et4WcEawUa7ZzEXfQZZOXgHcv7bYTdVQzgMugUWaW6gZTcNXuJr
   CXwJqLWoMXjMjlUWbtKdxMwvJWbj2bwHdyNmr5ugFxEYoMbXSnp0Wai2WVBZiLaZRpArAXd0YtNzMaYCZz6W5Zs9Xr0WaW2j
   oRjaGkuGWjTed3dw5YW6WbLyeRYeEfr6YtEaFsRac5WZGjcNWWdNwyEvY0Y8brEXbUivJms7egKYhSqnBYqFcj9btLrsGcc5
   XhA.22WgU.12ckS.22fyUmrTWxRWeCX6EXMkvPja6WnF.12YgI.12XnS.22XtMhM.32Zc7QXQXi3buUYYIWbv6p6bItGWNc1
   WbTbObAzEbMWzLKXbGiLXEbEWtHeFg9WW8XoLfGm1WbTh6WWEXg7g5M1GCEY32gFZ6pIWaCWBYJoLeFWVFe10zQXl0dKsDYJ
   vEYDWi8dCYm4nAYRyr4deWIcrZ0.22wpSWwOZTWVEy7YPq3Y9WhHZJZCZMWeOaNeBW1mDhOWyGEe9ZCo9cJZFdKXTeDZ8uPa
   LYFlOnEfG8YPXbAZ6u7vEW0aJl8qLYeOXwScRcTq3eJYDjI4g1W3WJaHJuHWV9mFh2jEeRq9hQWsGf4WwEyDZEW1o5YLXRYF
   5W2ZSa7tKWa4p8o1j8XZEbKcDdIXAOY3WkSXhUbsbHBba1dpoMXh0X4eYhIanRnYNdckFZQ.W73XrtJbI0606.040BbO006.
   03QS00.C3XpKXpM0W20CKMJH.53bGZI.13WJ6.02W0W462.002E.02Q4.131YX102.040BYX1002.03WI902082020202020
   20.134020202020.1340.134020.134020.134020202020WA57CK0I0W8WR.02fC0K00060004000B000A000B000XO0004
   000X5000100060002000C01040B0W10D0WH000C00080003000I02000.03WLYgG00.02W80005000W90.030YgG00.W22XB
   000WL01040.031YiI.0280B080E000dL0.042YgGYdJ00000g700000e200000d600000100000400000G00000000dL0000
   00.02dC000.04dBYgGYdT00200WH008002.03X5XH02020WF08024WS02020WF08022WS0WJ08022WQ0WH2WI0WJ2WI020WH
   AWI02020WF4WG0WH2WI02020WF2WG0WH202WI0WJ2WI0WJEWI02020WF08022WQ0WH08022X70A02020WD0208022WS02020
   WF08022WS02020WF08022WS02020WF08022WS0WJ08026WS02020WF0802WKXE20WH0.642WOYe800200W7002006002.03X
   5X7020W70206024WI020W70206022WI020W7020602WD10221022X70WR0208022908022X70WT2W8020W70206026XE2Z10
   20W7020602.040KYdT00200200WF004.03X5XH02020WF044WM02020WF04232WG0WH2WI0WJ2WI0WJAWI02020WF4WG020W
   F2WI02020WF2WG2WH2WI0WJ2WI0WJEWI02020WF2WG0WH2WI02020WD022WI02020WF042WM02020WF2WI02020WF042WM0W
   J0XO6ZB02020WF04.040QYfH004.03X5T0443042304G3042304U5022040048304.04JEYgA020020.03HD0241022102D1
   022102D10211024102E10221023WS02020WF0W81040202WH0241022102D1022102D10211024102E10221023WS02020WF
   0W81040203902020WF1420637WI02022302026WF20W2C00.I46WUYfH02WI00000WJ0200WFWI00200240100020WR001CW
   GWQ01200WP0WJWO00000100WJ0004WGWG0000WHWH1WG000001A0WJWO00000WF0004WG80270002WFWG00000WH00A4WI90
   WJ000000820700A001EWE70002WFWG00WH4WG000A00101WQ00004WJ0000WFWG0002WG100WJ00A01WQ00WH04WI00WJ.24
   03WE4WJ300WJ1WG00080170000080WJ2001807000X5WEA4300010420010WF20014020WG10WH0EWE0412100400S100WJ0
   CWG00100WJ09005008WG07WHWQ4WGWHLWHAK006WIWQ14WR1391WJ02WI040WGWK2WR210WH007WJ0WIWG0WNWH9JWI07WJ0
   3WEAW730.W94W2WHdOQ00.05WM0e4YfL01WOWCWTWCWR3W0WFNWD7W2U1GW346UW2B3.04W6W3A.WQ2YYB0.O2000.W23YZ3
   YfT.5306.1302.1302.1302.1302.02WU.03CYgE000200X4000X3200X81000000.02X702000202000200020002000200
   02020202020002000200020002000200020002000E00020002000200020002000200020202000.04BYdJYgE000002000
   002000.030000.J09YcB.70PW3.42WT.10P4.B2uw4a64444YN44X9YLaO4444244444444444644.0054.02G666.0046.0
   2C4.0054.02E8aO2loMb52fSfPfU2.002fT.005g5.02eK.002W8.02WN.009WG.305aL.205C.205C.202C.XW32ctM2WVK
   x2ZF.12a5Xwx9Xwx41a02jkLjkICZQZD33YPsUt2YCWRXE2Z1daxFafy3Xuz6daxDdavAdavDdbqItK2WXCWXJdawQdawJ24
   XI3Xwx5Xwx2WUrf6.12reMW52J.002iS.02dbdUW9.WshR0PdcYT.00PX2.00PX1.006X2.10HG.00PXH.00PX2.02X1.124
   2.226.2262.2036.107A.003S.12A.1064.10AG.00PY0.00PX2.02X12.1034.207C.106I.10PS.02X12.1034.104A.12
   C.3068.10PS.00PX1.00PX2.00PX1.00PX2.00PX1.00PX2.00PX1.00PX2.00PX1.00PX2.00PX1.00PX2.02iDlS.20GrA
   .02E.006M.10OS.12864O91.00GY0.02E.006M.10OS.12864O91.00GY0.02E.006M.10OS.12864O91.00GY0.02E.006M
   .10OS.12864O91.00GY0.02E.006M.10OS.12864O91WP2.209WyL.0090.0090.0090.0090.avL2YaG286.12WJWC9KW7.
   003D.02W0CGNQW26J264C44YBZSWIY6.12ZH8.12WN.22WK.12WR.003D.02W0CGNQ.12RJ26.12G.128.62R.422.12WR.1
   2B.124W6C.127Q.12R.22B.12G.128.12d8.12ZP.12ZH8.12WN.22WKKW7D.1242W6CGNQ.12RJ26.12G44YB.12Y9.12cQ
   286WH2WC9KW7.102B.02W2CGNQW26J264C44.52W486.12WJWC9KW7.102B.02W2CGNQW26J264C44.Yl109YbM.XaZ72Wfn
   39IcjqGcjXUa1QZIcNX0a1WGkVIdVX2ckt9EW1W7ckY5czhQkdLXEckZOckZ3QWkTWlFIewz0ewuQSkl8koSMXQAkp8kuE4W
   NWDM2W3Y7GIWJK400clr7cWe6kd4WBcma3cmZ9CWBePbHW1X2YNaDWLZAW1X40WBW5GUqTmGmJhNX8Xg2Yq0nHXEWJdBfO1c
   TcopOcol7AUW9GZ4cpc6Z8cpXGY1Oa2e5nwOSobBYF0cpx3cpoFWBUOcqc3cqb9EWsGWqLokTooUSa9Y8crhBcrVIcrVNcqx
   T5W3bG2pXJpZCXOWBXQpd1dhnGdhlPpfU66W9ezi8ezeRcsxI0cad9nmS0piEdqm6uYEdvY0IplBpoDY9KX6dOpxLWSqVRcu
   VEctx4dA843XUW9XARMY1W98WLMZ8aDX8d0cutUcuv5Z5bUWNb8cuz6cuv5aUWOrY2rkFWBX0XDrhBrvAWRcwfIcwXRmRg8s
   V8sZTsb0X9hXI6ghNbDiwGWWhJnt28CYTLcxeKdpsUsu4cGi7Y9cxVRcxV8c4kPtbRteRb8ZIh8cxX3cwyOtx9uWQcxwIcxt
   8uWJuYIXSWN2cyn0krAkyCcykGcziIczb8SbHg9XIYLYEXIUQcyzQcza1l6Z2vc2vi37czc4czpCt2czaEY3czXQcDWM5vxB
   wVDY9BYFbyk8byaDcztTczo9dVeFdVVDQWNdWaSdWXOWBdWpRjCdWpEW3xa6xbSxb30xlIWBWBW9ZExnJxtEdXz8dXxHdYYG
   dYV8cgYTcftIdZeFWFe1eXj4Oyd3dZlI1XGWLdZmU20XOyfEyjLyiPa5eZaOdakFZ0Z4ytCeaYDdbW2dbdIXOdbcKaTzc0zh
   GKAdce4o90dcn4zf3ecj2dcpU6zqQecuDdcmDWVV4WVWI9WRdeXDddw0WVY7WVeMYPZAWVjGefdFX0efd2efmGdelCderTde
   q5bGMdfeHZMdfdBdflUdfkScjrDdlVBWWi7a7WWjTWWnOplDeVq2Swt0IcjVE6ccKWeWUWXYEBW5ulAumK4KXKdhaDdhaEYJ
   ZGZOdReTXMc7lNcL4W1dhaLoTeKejxAWXz94X8dkmIdkhGdhy9elWN8elf3nKelx2WYmPOM4Z4X3dKXPeNa6ZAWNWYzPWZaM
   X2WZaHWZgM6dkb7djyMEWZkTWZmOWiwCeyzGgRepsRIWaZIZUf4i3dliBdlcOWDaPaTdmaCXWk5bkkNTYBbkwEbkhMbEdot1
   WNdoY9b0X2dokUdok9nCf82aStIWPdpjCdoq7WejHWemDdph0eyt5WeyFzhFznMdqpBiNfVyUGWfcIdrrSfWvIfXZKdry40W
   TdsjPdsXQWfh0WflJd4WNYRWfpAfaXBdtv5oFh6Wgr9X0Wgw5dvnEfciRfcmEm3dEdvuIWhg9WhkAAEKEXCdxh2"

/-- Combining classes other than zero; the target is the class. -/
def classEntries : Array Table.Entry := Table.readEntries
  "tN0KjQ.024.003N.02OW0.0048.001W4.003W5.001W4.00AW5.004j3.003j4.007K.02KJ.002J.002K.001J.102K.003
   J.02K4.001N.02K6.0012.021.0012.021.00C5.dR040.dH2J.003K.02J.002K.02F3.005K.005J.001K.02J.001K.02
   FC4j522222222.0012.02222.122.1222.12i7J.12i0.XA07iL.02hR22.WH292222222.001hK.001J.004K.02J.001K.
   02J.G2gS.Y806hI.2030.02JK.2010.12J.001K.02J.W42gQ.U2hGJ.001K.02J.001K.002J.02K.001J.02KJ.002K.02
   JKJKJKJ.001K.a5060.02JK.92J.O03K.1080.1020.1040.WC02J.WT2K.002J.003K.WB040.004J.00DK.12J.001K.02
   J.001K.02J.002K.002J.02hD22.002hU.02J.001K.001J.004K.WT2jB.G24.32j8J.001K.YA2jB.G24.WH2j8.WU2jB.
   G24.YH23.G24.YH23.G24.Z320.YH23.G24.72ZQE.Y82aC.G24.YG010.G20.Z020.YG01b2.02b1.D03bA.YF01M.02c0.
   D03c9.XE01bA.R20.120.127.WO2aI2.124.5033.220.101bE.02j7.101j8.X02J.YJ2iM.1014.XK2iJ.s602K.zI01j7
   .U20.a220.A2j8.bH23.ZJ2BGJ.c22KJ.X92iI.K07j8.22J.WH04K.005J.001K.02J.1010.001K.001J.004K.02J.003
   K.Y82jB.F24.W72j8J.006K.WN01j7.WR23.B014.X523.ZS02jC.12jN.004j4.001K.003J.02K.106jN.42j4.62K.301
   0.bC010.02J.006K.02J.001K.028W8CW4.00W5WP.024.0017.02F3O6PKJ.s701K.001jN.003jO.002jN.001jO.420.3
   01jN.02jOJK.001jN.003j4.02K.Yb1020.ZH2j7.Y30W0j8.mR2NK8J.0014.YC01iS.WVh12jA.4090.W1010.XI010.dS
   2j7.W620.ZR20.R0Hj8.WQ02J.W62iI.Y223.C24.cM2j8.1010.02J.201K.5010.120.WL2j7.cT20.qXT2W3.tP06i5.0
   06J.001K.WVC2J.c920.ZP04K.Ws82J.12K.W920jNj4.42iI.aA2j8J.nF03K.hF010.ZT01J.002K.02JK.003J.WI2KJK
   J.b62iI.WA20.E20.WQ203.X702jC.WH01j7.X023.XE24.923.YD243.aN204.XI013.G24.O06j8.3040.bJ2j7.323.N2
   jC.Y62j73.d3243.Z224.YP203.YM24.dL203.dA014.423.a124.XL20.I20.XJ20.iI20.dA23.1014.XJ20.pnM04F.WS
   06jO.Wd001jD.pi529.alH01iR.002iQ.32jG.004J.8078.204K.001J.U03K.ZO020.YpC060.10G0.2060.1010.1040.
   dD060.h320.WU030.WmG06J.YG05K.02jB"

/-- Composed characters and the pair each is made of. -/
def composedEntries : Array Table.Entry := Table.readEntries
  "b53Z6WnH0202020A04.134WR4XF02020C8F02020C.13A9250202020A.23CF02020C8D.23G10202020A04.134WR4XF020
   20C8F02020C.13A9250202020A.23CF02020C8D.130EYI7X20X14X20X1X6X20WSXFX20X12X20X1AX20X1AX20WU0X20.2
   3WUFX20X14X20X12X20X1X4X20X1WOX20WSJX20X18X20X12X20X1X2X20WUXBX20.23WU2X20X12X20X14X20X1X6X20X1X
   3.3329X20WUXCX20.13WUXDX20X1XEX20X1WMX20.43WSLX20X1XEX20X1WMX20.33WUFX20X14X20X1AX20.23WQJX20X1X
   EX20X1WMX20WULX20X12X20X1XCX20X1WMX20WUWNX20X1WMX20.23WUHX20X12X20X14X20X18X20X12X20X1WRX20WSXDX
   20WS0X20X1C2DX20X1CX20X1AX20.W23XNUX20.D3WK0X20.S3YATX20WG0X20WK0X20WK0X20bKFX20X15X20X1MX20X1NX
   20.13YI8X20pO020rN0X20.23f7GX20WO0X20WOWPX20tEX920YAGj40WZI0.33X7LX20.23WI1X20aJ2X20WU0X20R0X20g
   OSX20X14X20WO3X20X14X20WO3X20X14X20WK3X20X14X20WQ3X20X14X20WQ3X20X14X20X5WBX20WU0X20.23XPWKX20.6
   3XF9X20WOX2X20c9X7X20X30X20fL6X20xQ520z90X20.fS3Wp35.13804040.13C0.13C080X40.P3Y4EO0OD804040W50.
   P3W4EO0BDC080.43I00E.WC3ZAF0G.133D.33PE.43W9D31MC.A3L0.W03X20.M35B0G.133D.33X8E.43WOD31MC.N3Y5I2
   0.XB3b3HX20.D3XD0X20X14X20.23WM3X20.23fG420hH0X20WU0X20.23WU7X20X18X20WK0X20.23fU020h30X20XL7X20
   X18X20X16X20WO5X20.23WO0X20.eH3zMWsC02X40X32X81.ZT3dU0.13W80.G3W30.o83WcIWm0.73G0.2360.ZQ3eHdC0W
   J.h73tOtM.230WG0WJ.X93ZQd8.WM3YBWI201WJ.YU3d8d6.YQ3cPd6.63E002.130W88W7.Z23d0bO201WJ.ZH3eFcD.130
   A695WB.nP3WbTWc4.XwO3atJaw4.1340.1340.1340.1340.3380.W93XK0.1340.234020.1360.rI3jgUhuCX20WUWSX20
   X1WPX20X1SX20bGY2X20fFCX20X1WPX20X1SX20X1JX20X1CX20g7XR201220i8XQX20X16X20y3XL20WV42X20WU5X20WU6
   X20X1WPX20X1WMX20X1X0X20X1EX20WU4X20bIY0X20fH0X20X1X6X20X1SX20WURX20kw0WU20ky3XSX20X17X20WUXPX20
   X1CX20X1WPX20WUWOX20X1WPX20X1SX20X17X20bKXPX20X1EX20aJF201220l90X20X1CX20WS0X20X1WPX20kxTWU20lV1
   XSX20WUXLX20X1WPX20jSWO20A020kj1020lVD0X20X1WPX20X1SX20X17X20WUHX20X1OX20X15X20kLXP202E20mQ9X20X
   1X2X20WUX7X20X12X20X1EX20X11X20X1WPX20WUWOX20X12X20WU1X20WU9X20X1X4X20X1SX20W40OXJ6440.13lS5.43p
   FWPX20X1WKX20b8FX20X11X20X1IX20X1BX20kv7120kt612011201I201B20kt3620laCWRX20X1WKX20X1BX20bG3X20X1
   1X20X1IX20X1BX20kw8120lbLEX20X1WLX20WK0X20X1WKX20bGFX20X11X20X1IX20X1BX20kwS120klQ12011201I201B2
   01X220qC0X20X1WKX20p8F2011201I201B201X220r3X7X20X1X8X20X1WKX20X1BX20.63Wr5W102jm1W82012201Z620jo
   4Y002joJW82012201Z620jmAY002jmPW8201220.23joSW502jpCW8201220.23jn7W502jnMW82012201Z620jpPY002jq9
   W82012201Z620jo4Y002joJW82012201Z620jqMY002jr6W82012201Z620joOY002jp8W8201220.23jrBW502jrQW82012
   20.23jpDW502jpSW82012201Z620.13js0XT.13jsHW8.1302.130Z6jq6Y002jqLW82012201Z620jsOY002jt8W8201220
   1Z620jsOZ7.1380.1340.1340.13C0.13C0.1380.33jkFZE202020202020202020202020202020W30202020202020202
   020202020202020Y50202020202020202020202020202020jt5Z103jt8Z6jt7090.13A5jxO6jzPZ10307.130ZE.53jvI
   0jt30H0.13I5jyD6kVIZD.1340.130ZE.33X6Z103W37.33W2Z8W30Y4YQ0307.53XQC03C7.13JW7028XUC0XDYQ0307.13
   7W9.53jv2Y5jsE0A0.1395kVB6kY1ZD.13K0.130ZE.ZfL3st5tZK.1340.1340.1340.1340.1340.1340.1340.1340.13
   40.1340.1340.2360.1340.1340.63E002.136102.136102.136102.136102.M3YC1.93aJ0.D3S0.1340.1340.1340.1
   340.1340.1340.1340.1340.1340.1340.1340.2360.1340.1340.63E002.136102.136102.136102.136102.M3YC1.2
   3ZM0202020.33M0.WxmH3YvZ5YvhN.1340.E3K0.Z63e1c120.mC3WYCWYG0WJ.gP3sRrS0J.130Q.d33lEkJ20.xO3WvHWv
   R"

/-- The combining class of a code point; a base has class zero. -/
def combiningClass (n : Nat) : Nat :=
  if n < 0x300 then 0
  else match classEntries.find? (·.sources.contains n) with
    | some e => e.targets.headD 0
    | none => 0

/-- The compatibility pieces of a code point, down to a number of pairs within pairs. -/
def piecesOf : Nat → Nat → List Nat
  | 0, n => [n]
  | depth + 1, n =>
    if n < 0x80 then [n]
    else if 0xAC00 ≤ n ∧ n ≤ 0xD7A3 then
      let s := n - 0xAC00
      let lead := 0x1100 + s / 588
      let vowel := 0x1161 + s % 588 / 28
      if s % 28 = 0 then [lead, vowel] else [lead, vowel, 0x11A7 + s % 28]
    else match Table.lookup? composedEntries n with
      | some pair => pair.flatMap (piecesOf depth)
      | none => (Table.lookup? pieceEntries n).getD [n]

/-- The compatibility pieces of a code point. No pair holds another more than twice over. -/
def decompose (n : Nat) : List Nat := piecesOf 4 n

/-- Inserts a mark behind the marks of a class not above its own. -/
def insertMark (mark : Nat × Nat) : List (Nat × Nat) → List (Nat × Nat)
  | [] => [mark]
  | other :: rest =>
    if mark.1 < other.1 then mark :: other :: rest else other :: insertMark mark rest

/-- Puts each run of marks into the order of their classes, keeping equals in place. -/
def reorder (marks : List (Nat × Nat)) : List Nat → List Nat
  | [] => marks.map (·.2)
  | n :: rest =>
    let k := combiningClass n
    if k = 0 then marks.map (·.2) ++ n :: reorder [] rest
    else reorder (insertMark (k, n) marks) rest

/-- The character that a pair composes to. -/
def composePair? (a b : Nat) : Option Nat :=
  if 0x1100 ≤ a ∧ a < 0x1113 ∧ 0x1161 ≤ b ∧ b < 0x1176 then
    some (0xAC00 + ((a - 0x1100) * 21 + (b - 0x1161)) * 28)
  else if 0xAC00 ≤ a ∧ a ≤ 0xD7A3 ∧ (a - 0xAC00) % 28 = 0 ∧ 0x11A7 < b ∧ b < 0x11C3 then
    some (a + (b - 0x11A7))
  else (composedEntries.find? (·.targets == [a, b])).map (·.sources.lo)

/-- Composes marks with the last base. `held` are the marks behind the base that did not compose,
in reverse, and `last` is the class of the nearest of them. -/
def composeFrom (base : Nat) (held : List Nat) (last : Option Nat) : List Nat → List Nat
  | [] => base :: held.reverse
  | n :: rest =>
    let k := combiningClass n
    let blocked := match last with
      | none => false
      | some l => l = 0 || l ≥ k
    match (if blocked then none else composePair? base n) with
    | some composed => composeFrom composed held last rest
    | none =>
      if k = 0 then base :: held.reverse ++ composeFrom n [] none rest
      else composeFrom base (n :: held) (some k) rest

/-- Composes a decomposed and ordered sequence. -/
def compose : List Nat → List Nat
  | [] => []
  | n :: rest =>
    if combiningClass n = 0 then composeFrom n [] none rest else n :: compose rest

/-- The compatibility-composed normal form of an identifier. -/
def identifier (text : List Char) : List Char :=
  if text.all (·.toNat < 0x80) then text
  else (compose (reorder [] (text.flatMap fun c => decompose c.toNat))).map Char.ofNat

end CodeAudit.Text.Normal
