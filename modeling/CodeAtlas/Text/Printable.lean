import CodeAtlas.Text.Ranges

/-!
# Printable characters

Everything but controls, formatting marks, surrogates, unassigned and private characters, and
separators other than the space, as of version 14 of the standard.
-/

namespace CodeAtlas.Text

/-- The printable characters outside ASCII. -/
def printableRanges : Ranges :=
  .ofGaps (numbersOf [
    0x313720ca2199296b6292033b26930e32f794c932f37d27fa25a2a552b196e2231e35c249e23a202655319b92391ca,
    0x39330a0322221934212625a2220922390a09023090423154203121212625a31552230b3421501933130933402625a,
    0x210932220937926a2224964a79070332244539424141202143224521391a3421520923130934212625a3137222609,
    0x51f59231977202550463020927a41a2221b379552222e22249691219332171093222093421926a2225a0919333032,
    0x320f2693320263320c3320d3320263320fd3060258b6c4926923c26c53c27891c331935202436a2027a2420216c4b,
    0x31d4053953926b3958962d090b972925971971935b959122249593a297a295a090b943b27f993535a971b47b32893,
    0x24e36b202020273535c3535a8962d192932d093f46943f193e926d44992e6b35971972934b208935f42971b53d494,
    0x26262626297a791097e306024d64bd27b33acb6a292b6aa9539a0a0c0a0c44922b312a6d197a2a092232a25359269,
    0xe71942f1b42021629b197ea5a3bd296e44d99f26d593a925b922d66c935a926f6393b5ab590b921b3c5f926262626,
    0x1d935dd58c8a0e56a593ceda71935f953f26262953535393b1b6c9319359296e20c529259945b493e973919589197,
    0x262f93c593692122a21b23931696264235353545fa568a245322a22e71d1c0095e34fe1a4f92121202421b645967c,
    0xc4891262692292126269239493e197c53c53c71935ba3d5954c25b62d65b293c53b0a0e44b38a5d0e044927a944d5,
    0x6c1c7f090909195234b22276121e33a57e189062b40c6122a1e091978926a304123d20356890921d251b7395a296e,
    0x69425f293c5599296a5a3b7c1b7a1d197c79913221d26b7cc19195d092e692e0f0991a96593091b62b34b45e29395,
    0x7b423b949a446366070323131924212625a31372371962f7292692320262893d21a493a27b9296c191a24e719090b,
    0x197894b2935d377891929393125b21273037592a95c93f2fa6a56932b7e1971f4a49719494893c5c35e7ca1919789,
    0x26d97c92be9691e0a00fa0b7ec190952124c21257191909212043d21262995925a37b44b395924d20909c099692a9,
    0x90a090f52996c92b91ea92a64a262193958939535b71920a951926b090f892fe8a68992aff6d8a692c9599d38b494,
    0x936c395eb5f3e9296a35d1c9993319090944962d958cc39e1932a26d2cc2126230db9a093d5aba197efb979149418,
    0x9a69240a5fa933cc33ad2640242323b2627332089262023923313031268924a909a0b296a9593a3ba5896a7d91919,
    0x2122b2338b4f5993892ac9151953992d79348b2692123261cba061f2a6b18d151935944d6ab4212630a262cb6b1a,
    0xf5da394c269269369593c953d79c15e0a242260a21920232326233021202020202030212220202050702023219203,
    0x1939562944b2964444359593ad799135b197c719197e5390a0539090b9593e944947967af93ba5791090953d694b1,
    0x7db6eeeeda29d993cfa5b890c8e0ece97918ab935bb090f8891c7bbba9788a196c6e22aa2961977])

/-- Whether the character with this code point is shown as itself when a text is quoted. -/
def isPrintable (point : Nat) : Bool :=
  if point < 0x80 then 0x20 ≤ point && point < 0x7f else printableRanges.contains point

end CodeAtlas.Text
