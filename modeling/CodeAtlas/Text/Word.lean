import CodeAtlas.Text.Ranges

/-!
# Word characters

Letters, numbers of every kind, and the underscore. ASCII is decided by comparison, so that facts
about ASCII names need no table; the table holds the rest, as of version 14 of the standard.
-/

namespace CodeAtlas.Text

/-- The letters and numbers outside ASCII. -/
def wordRanges : Ranges :=
  .ofGaps (numbersOf [
    0x9215196a2d6d352b0990d7035c25ca1929a22a923a2022207023312428a0200947939519f26b26a222140210902da,
    0x2625a31375792195190903a045e3f1d2a527a629090b0b04029055a6051292d790490b96b5b201a03690910a022c,
    0x7b044212625a31374902919510a03a044212625a222091a2319090230c121212625a31551903533952216901a0434,
    0x92a121951210c04421926a2227502619195130323b047926a22273a496a07a394241412021432245204962195221,
    0x3c27593a0c01c331929024302912192027a2420210d1929659127d2a190c63020927a41a6522a51922601a030d222,
    0xa91a7943a792893320f2693320263320c3320d33202633249d22d306025c719205949520914043557295a2d4e944b,
    0x971b53d49437c0d6b395896021c34090b97197a1971940504c3e0a2249791a792a691a0929429961b20a33d994535,
    0x202020273535c3535ac1897fa604125232d232d090930e4195b3c3b7e695b2d19472a6d6b9069197194d4e296a6c2,
    0x4cb5d9a5b7e995a7993f7ab91f20546332923202020744021930506c94972965314e962264955334622402624e36b,
    0x7b191c791e7b39345b922d6321b92275a9543409092b26af01a9626262626262626296a1a0097e306025c30291437,
    0x5b1e793e395696a23222791b4202167f36c93090d79936b1a6d5a3b449c35d48949abd1897fec918d690d191c6927,
    0x2e975922d262629535355920929321b02034314021e4046a71957220b0d20b247295b6d094b2b6a395c2120451b19,
    0x9491b71b09194a68a245e9391d5e37f3a2dd2c3d92121202424921920645967c1d935dd58c8a0e56a593ceda71969,
    0xc53c53c71935ba3d42753c35b395c65b293c52b1a0e44b5eb12a0f594d592f93c593692122a21b2394c235353540b,
    0xa57e7891b50c6122a1e09195c36b36a304123d20356890921d251b7395a296ec4891262692292126269229593e197,
    0xb3495a197c799171d26b7cc19591d092e692e0f0991a960b1b62b35a395e1a473b271c7b26b0b09394b22230a6d33,
    0xd09192692320265a90b21a493a50229493797d59042c190305190a3c2919090b1c4d6903125b3b4e596a5a3b7d1a4,
    0x65396a2b7e19090692d7c194905a7d5c32d6d7ca19190215a7d7b2619633a4e7ba45903a044212625a313749192a6,
    0x1261e95b64b0a02a4c20909c0993a04a5d4906a0097c3905b0201a6c3778919790200a7a21273037592a95e93d2fa,
    0x971926b090f892fe8a68992aff6d8a0a0c9599d38b2a6d97c91be94d4a0a06fa2a7ec19090797b21257192906a5c2,
    0xe1932a26d2cc2126230db9a093d5aba197efb95b02118949389062992d96a91ea92a64a262195931a7d3a5b719269,
    0xb26b20b20b33ad2640242323b2627332089262023923313031268924a909a0b5d93a789b919090944962d958cc39,
    0x2222f0bc91950093891e09348b2692123267cba1953d3a5b28d051936394d2cf6b18cb1e3720b26b20b26b20b26b2,
    0x94cbd4958990a242260a2192023232623302120202020203021222020205070202321920302122b2338b6924d5993,
    0x29d993cfa5b890c8e0ece97918ab935bb090f8891c7bbba9788a1])

def isAsciiLetter (c : Char) : Bool :=
  ('A' ≤ c && c ≤ 'Z') || ('a' ≤ c && c ≤ 'z')

def isAsciiDigit (c : Char) : Bool :=
  '0' ≤ c && c ≤ '9'

/-- A letter, a digit or the underscore, within ASCII. -/
def isAsciiWord (c : Char) : Bool :=
  isAsciiLetter c || isAsciiDigit c || c == '_'

/-- A character that words are made of. -/
def isWord (c : Char) : Bool :=
  if c.toNat < 0x80 then isAsciiWord c else wordRanges.contains c.toNat

end CodeAtlas.Text
