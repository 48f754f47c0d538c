import ElectionKeys.Group.Basic

/-!
# The published groups

Two groups that are published as constants, versions 1.54 and 2.0 of one standard. Both have the
same order `q`; the middle bits of `p` come from the Euler-Mascheroni constant in the first and from
the logarithm of 2 in the second. The numbers are written in words of 256 bits.
-/

namespace ElectionKeys.Published

/-- The number with the given words of 256 bits, most significant first. -/
def ofWords (words : List Nat) : Nat := words.foldl (fun n w => (n <<< 256) + w) 0

/-- The order of both groups, the greatest prime of 256 bits. -/
def order : Nat := 0xFFFFFFFFFFFFFFFFFFFFFFFFFFFFFFFFFFFFFFFFFFFFFFFFFFFFFFFFFFFFFF43

/-! ### Version 2.0 -/

/-- The modulus of version 2.0. -/
def p2 : Nat := ofWords [
  0xFFFFFFFFFFFFFFFFFFFFFFFFFFFFFFFFFFFFFFFFFFFFFFFFFFFFFFFFFFFFFFFF,
  0xB17217F7D1CF79ABC9E3B39803F2F6AF40F343267298B62D8A0D175B8BAAFA2B,
  0xE7B876206DEBAC98559552FB4AFA1B10ED2EAE35C138214427573B291169B825,
  0x3E96CA16224AE8C51ACBDA11317C387EB9EA9BC3B136603B256FA0EC7657F74B,
  0x72CE87B19D6548CAF5DFA6BD38303248655FA1872F20E3A2DA2D97C50F3FD5C6,
  0x07F4CA11FB5BFB90610D30F88FE551A2EE569D6DFC1EFA157D2E23DE1400B396,
  0x17460775DB8990E5C943E732B479CD33CCCC4E659393514C4C1A1E0BD1D6095D,
  0x25669B333564A3376A9C7F8A5E148E82074DB6015CFE7AA30C480A5417350D2C,
  0x955D5179B1E17B9DAE313CDB6C606CB1078F735D1B2DB31B5F50B5185064C18B,
  0x4D162DB3B365853D7598A1951AE273EE5570B6C68F96983496D4E6D330AF889B,
  0x44A02554731CDC8EA17293D1228A4EF98D6F5177FBCF0755268A5C1F9538B982,
  0x61AFFD446B1CA3CF5E9222B88C66D3C5422183EDC99421090BBB16FAF3D949F2,
  0x36E02B20CEE886B905C128D53D0BD2F9621363196AF503020060E49908391A0C,
  0x57339BA2BEBA7D052AC5B61CC4E9207CEF2F0CE2D7373958D762265890445744,
  0xFB5F2DA4B751005892D356890DEFE9CAD9B9D4B713E06162A2D8FDD0DF2FD608,
  0xFFFFFFFFFFFFFFFFFFFFFFFFFFFFFFFFFFFFFFFFFFFFFFFFFFFFFFFFFFFFFFFF]

/-- The cofactor of version 2.0. -/
def r2 : Nat := ofWords [
  0x1,
  0x00000000000000000000000000000000000000000000000000000000000000BC,
  0xB17217F7D1CF79ABC9E3B39803F2F6AF40F343267298B62D8A0D175B8BAB857A,
  0xE8F428165418806C62B0EA36355A3A73E0C741985BF6A0E3130179BF2F0B43E3,
  0x3AD862923861B8C9F768C4169519600BAD06093F964B27E02D86831231A9160D,
  0xE48F4DA53D8AB5E69E386B694BEC1AE722D47579249D5424767C5C33B9151E07,
  0xC5C11D106AC446D330B47DB59D352E47A53157DE04461900F6FE360DB897DF53,
  0x16D87C94AE71DAD0BE84B647C4BCF818C23A2D4EBB53C702A5C8062D19F5E9B5,
  0x033A94F7FF732F54129712869D97B8C96C412921A9D8679770F499A041C297CF,
  0xF79D4C9149EB6CAF67B9EA3DC563D965F3AAD1377FF22DE9C3E62068DD0ED615,
  0x1C37B4F74634C2BD09DA912FD599F4333A8D2CC005627DCA37BAD43E64A39631,
  0x19C0BFE34810A21EE7CFC421D53398CBC7A95B3BF585E5A04B790E2FE1FE9BC2,
  0x64FDA8109F6454A082F5EFB2F37EA237AA29DF320D6EA860C41A9054CCD24876,
  0xC6253F667BFB0139B5531FF30189961202FD2B0D55A75272C7FD73343F7899BC,
  0xA0B36A4C470A64A009244C84E77CEBC92417D5BB13BF18167D8033EB6C4DD787,
  0x9FD4A7F529FD4A7F529FD4A7F529FD4A7F529FD4A7F529FD4A7F529FD4A7F52A]

/-- The generator of version 2.0. -/
def g2 : Nat := ofWords [
  0x36036FED214F3B50DC566D3A312FE4131FEE1C2BCE6D02EA39B477AC05F7F885,
  0xF38CFE77A7E45ACF4029114C4D7A9BFE058BF2F995D2479D3DDA618FFD910D3C,
  0x4236AB2CFDD783A5016F7465CF59BBF45D24A22F130F2D04FE93B2D58BB9C1D1,
  0xD27FC9A17D2AF49A779F3FFBDCA22900C14202EE6C99616034BE35CBCDD3E7BB,
  0x7996ADFE534B63CCA41E21FF5DC778EBB1B86C53BFBE99987D7AEA0756237FB4,
  0x0922139F90A62F2AA8D9AD34DFF799E33C857A6468D001ACF3B681DB87DC4242,
  0x755E2AC5A5027DB81984F033C4D178371F273DBB4FCEA1E628C23E52759BC776,
  0x5728035CEA26B44C49A65666889820A45C33DD37EA4A1D00CB62305CD541BE1E,
  0x8A92685A07012B1A20A746C3591A2DB3815000D2AACCFE43DC49E828C1ED7387,
  0x466AFD8E4BF1935593B2A442EEC271C50AD39F733797A1EA11802A2557916534,
  0x662A6B7E9A9E449A24C8CFF809E79A4D806EB681119330E6C57985E39B200B48,
  0x93639FDFDEA49F76AD1ACD997EBA13657541E79EC57437E504EDA9DD01106151,
  0x6C643FB30D6D58AFCCD28B73FEDA29EC12B01A5EB86399A593A9D5F450DE39CB,
  0x92962C5EC6925348DB54D128FD99C14B457F883EC20112A75A6A0581D3D80A3B,
  0x4EF09EC86F9552FFDA1653F133AA2534983A6F31B0EE4697935A6B1EA2F75B85,
  0xE7EBA151BA486094D68722B054633FEC51CA3F29B31E77E317B178B6B9D8AE0F]

/-! ### Version 1.54 -/

/-- The modulus of version 1.54. -/
def p154 : Nat := ofWords [
  0xFFFFFFFFFFFFFFFFFFFFFFFFFFFFFFFFFFFFFFFFFFFFFFFFFFFFFFFFFFFFFFFF,
  0x93C467E37DB0C7A4D1BE3F810152CB56A1CECC3AF65CC0190C03DF34709AFFBD,
  0x8E4B59FA03A9F0EED0649CCB621057D11056AE9132135A08E43B4673D74BAFEA,
  0x58DEB878CC86D733DBE7BF38154B36CF8A96D1567899AAAE0C09D4C8B6B7B86F,
  0xD2A1EA1DE62FF8643EC7C271827977225E6AC2F0BD61C746961542A3CE3BEA5D,
  0xB54FE70E63E6D09F8FC28658E80567A47CFDE60EE741E5D85A7BD46931CED822,
  0x0365594964B839896FCAABCCC9B31959C083F22AD3EE591C32FAB2C7448F2A05,
  0x7DB2DB49EE52E0182741E53865F004CC8E704B7C5C40BF304C4D8C4F13EDF604,
  0x7C555302D2238D8CE11DF2424F1B66C2C5D238D0744DB679AF2890487031F9C0,
  0xAEA1C4BB6FE9554EE528FDF1B05E5B256223B2F09215F3719F9C7CCC69DDF172,
  0xD0D6234217FCC0037F18B93EF5389130B7A661E5C26E54214068BBCAFEA32A67,
  0x818BD3075AD1F5C7E9CC3D1737FB28171BAF84DBB6612B7881C1A48E439CD03A,
  0x92BF52225A2B38E6542E9F722BCE15A381B5753EA842763381CCAE83512B3051,
  0x1B32E5E8D80362149AD030AABA5F3A5798BB22AA7EC1B6D0F17903F4E22D8407,
  0x34AA85973F79A93FFB82A75C47C03D43D2F9CA02D03199BACEDDD4533A52566A,
  0xFFFFFFFFFFFFFFFFFFFFFFFFFFFFFFFFFFFFFFFFFFFFFFFFFFFFFFFFFFFFFFFF]

/-- The cofactor of version 1.54. -/
def r154 : Nat := ofWords [
  0x1,
  0x00000000000000000000000000000000000000000000000000000000000000BC,
  0x93C467E37DB0C7A4D1BE3F810152CB56A1CECC3AF65CC0190C03DF34709B8AF6,
  0xA64C0CEDCF2D559DA9D97F095C3076C686037619148D2C86C317102AFA214803,
  0x1F04440AC0FF0C9A417A89212512E7607B2501DAA4D38A2C1410C4836149E2BD,
  0xB8C8260E627C4646963EFFE9E16E495D48BD215C6D8EC9D1667657A2A1C8506F,
  0x2113FFAD19A6B2BC7C45760456719183309F874BC9ACE570FFDA877AA2B23A2D,
  0x6F291C1554CA2EB12F12CD009B8B8734A64AD51EB893BD891750B85162241D90,
  0x8F0C9709879758E7E8233EAB3BF2D6AB53AFA32AA153AD6682E5A0648897C9BE,
  0x18A0D50BECE030C3432336AD9163E33F8E7DAF498F14BB2852AFFA814841EB18,
  0xDD5F0E89516D557776285C16071D211194EE1C3F34642036AB886E3EC28882CE,
  0x4003DEA335B4D935BAE4B58235B9FB2BAB713C8F705A1C7DE42220209D6BBCAC,
  0xC467318601565272E4A63E38E2499754AE493AC1A8E83469EEF35CA27C271BC7,
  0x92EEE21156E617B922EA8F713C22CF282DC5D6385BB12868EB781278FA0AB2A8,
  0x958FCCB5FFE2E5C361FC174420122B0163CA4A46308C8C46C91EA7457C136A7D,
  0x9FD4A7F529FD4A7F529FD4A7F529FD4A7F529FD4A7F529FD4A7F529FD4A7F52A]

/-- The generator of version 1.54. -/
def g154 : Nat := ofWords [
  0x1D41E49C477E15EAEEF0C5E4AC08D4A46C268CD3424FC01D13769BDB43673218,
  0x587BC86C4C1448D006A03699F3ABAE5FEB19E296F5D143CC5E4A3FC89088C9F4,
  0x523D166EE3AE9D5FB03C0BDD77ADD5C017F6C55E2EC92C226FEF5C6C1DF2E7C3,
  0x6D90E7EAADE098241D3409983BCCD2B5379E9391FBC62F9F8D939D1208B16036,
  0x7C134264122189595EC85C8CDBE5F9D307F46912C04932F8C16815A76B4682BD,
  0x6BDC0ED52B00D8D30F59C731D5A7FFAE8165D53CF96649AAC2B743DA56F14F19,
  0xDACC5236F29B1AB9F9BEFC69697293D5DEAD8B5BF5DE9BAB6DE67C45719E5634,
  0x4A3CBDF3609824B1B578E34EAEB6DD3190AB3571D6D671C512282C1DA7BD36B4,
  0x251D2584FADEA80B9E141423074DD9B5FB83ACBDEAD4C87A58FFF517F977A830,
  0x80370A3B0CF98A1BC2978C47AAC29611FD6C40E2F9875C35D50443A9AA3F4961,
  0x1DCD3A0D6FF3CB3FACF31471BDB61860B92C594D4E46569BB39FEEADFF1FD64C,
  0x836A6D6DB85C6BA7241766B7AB56BF739633B054147F7170921412E948D9E474,
  0x02D15BB1C257318612C121C36B80EB8433C08E7D0B7149E3AB0A8735A92EDCE8,
  0xFF943E28A2DCEACFCC69EC318909CB047BE1C5858844B5AD44F22EEB289E4CC5,
  0x54F7A5E2F3DEA026877FF92851816071CE028EB868D965CCB2D2295A8C55BD1C,
  0x070B39B09AE06B37D29343B9D8997DC244C468B980970731736EE018BBADB987]

/-! ### The groups -/

/-- The shape that both groups have, up to the source of the middle bits. -/
def shape (middle : DigitSource) : PrimeShape where
  qBits := 256
  pBits := 4096
  topOnes := 256
  middle := middle
  bottomOnes := 256

/-- Version 1.54. -/
def version154 : SchnorrGroup where
  version := some (1, 54)
  shape := shape .eulerMascheroni
  p := p154
  q := order
  r := r154
  g := g154

/-- Version 2.0. -/
def version2 : SchnorrGroup where
  version := some (2, 0)
  shape := shape .ln2
  p := p2
  q := order
  r := r2
  g := g2

/-- The version in use where none is named. -/
def latestVersion : Int × Int := (2, 0)

/-- The group in use where none is named. -/
def latest : SchnorrGroup := version2

end ElectionKeys.Published
