import Phrasebook.Plural.Condition
/-!
# Ordinal plural rules

The conditions under which a position takes each plural category, by language,
tried from top to bottom.
-/

namespace Phrasebook.Plural.Cldr

open Term (n i v f t)

/-- The ordinal rules by language. -/
def ordinal : List RuleGroup := [
  ⟨["af", "am", "an", "ar", "bg", "bs", "ce", "cs", "da", "de", "dsb", "el", "es", "et", "eu",
    "fa", "fi", "fy", "gl", "gsw", "he", "hr", "hsb", "ia", "id", "in", "is", "iw", "ja", "km",
    "kn", "ko", "ky", "lt", "lv", "ml", "mn", "my", "nb", "nl", "pa", "pl", "prg", "ps", "pt",
    "ru", "sd", "sh", "si", "sk", "sl", "sr", "sw", "ta", "te", "th", "tr", "ur", "uz", "yue",
    "zh", "zu"], []⟩,
  ⟨["as", "bn"], [
    (.few, n.is 4),
    (.many, n.is 6),
    (.one, n.oneOf [1, 5, 7, 8, 9, 10]),
    (.two, n.oneOf [2, 3])]⟩,
  ⟨["az"], [
    (.few, (i % 10).oneOf [3, 4] |||
      (i % 1000).oneOf [100, 200, 300, 400, 500, 600, 700, 800, 900]),
    (.many, i.is 0 ||| (i % 10).is 6 ||| (i % 100).oneOf [40, 60, 90]),
    (.one, (i % 10).oneOf [1, 2, 5, 7, 8] ||| (i % 100).oneOf [20, 50, 70, 80])]⟩,
  ⟨["be"], [
    (.few, (i % 10).oneOf [2, 3] &&& (i % 100).isNot 12 &&& (i % 100).isNot 13)]⟩,
  ⟨["ca"], [
    (.few, n.is 4),
    (.one, n.oneOf [1, 3]),
    (.two, n.is 2)]⟩,
  ⟨["cy"], [
    (.few, n.oneOf [3, 4]),
    (.many, n.oneOf [5, 6]),
    (.one, n.is 1),
    (.two, n.is 2),
    (.zero, n.oneOf [0, 7, 8, 9])]⟩,
  ⟨["en"], [
    (.few, (i % 10).is 3 &&& (i % 100).isNot 13),
    (.one, (i % 10).is 1 &&& (i % 100).isNot 11),
    (.two, (i % 10).is 2 &&& (i % 100).isNot 12)]⟩,
  ⟨["fil", "fr", "ga", "hy", "lo", "mo", "ms", "ro", "tl", "vi"], [
    (.one, n.is 1)]⟩,
  ⟨["gd"], [
    (.few, n.oneOf [3, 13]),
    (.one, n.oneOf [1, 11]),
    (.two, n.oneOf [2, 12])]⟩,
  ⟨["gu", "hi"], [
    (.few, n.is 4),
    (.many, n.is 6),
    (.one, n.is 1),
    (.two, n.oneOf [2, 3])]⟩,
  ⟨["hu"], [
    (.one, n.oneOf [1, 5])]⟩,
  ⟨["it", "sc", "scn"], [
    (.many, n.oneOf [11, 8, 80, 800])]⟩,
  ⟨["ka"], [
    (.many, i.is 0 ||| (i % 100).oneOf [40, 60, 80] ||| (i % 100).within 2 20),
    (.one, i.is 1)]⟩,
  ⟨["kk"], [
    (.many, (i % 10).oneOf [6, 9] ||| (i % 10).is 0 &&& n.isNot 0)]⟩,
  ⟨["kw"], [
    (.many, n.is 5 ||| (i % 100).is 5),
    (.one, i.within 1 4 &&& f.is 0 ||| i.within 1 4 ||| i.within 21 24 ||| i.within 41 44 |||
      i.within 61 64 ||| i.within 81 84)]⟩,
  ⟨["mk"], [
    (.many, (i % 10).oneOf [7, 8] &&& (i % 100).isNot 17 &&& (i % 100).isNot 18),
    (.one, (i % 10).is 1 &&& (i % 100).isNot 11),
    (.two, (i % 10).is 2 &&& (i % 100).isNot 12)]⟩,
  ⟨["mr"], [
    (.few, n.is 4),
    (.one, n.is 1),
    (.two, n.oneOf [2, 3])]⟩,
  ⟨["ne"], [
    (.one, i.within 1 4 &&& f.is 0)]⟩,
  ⟨["or"], [
    (.few, n.is 4),
    (.many, n.is 6),
    (.one, n.oneOf [1, 5] ||| i.within 7 9 &&& f.is 0),
    (.two, n.oneOf [2, 3])]⟩,
  ⟨["sq"], [
    (.many, (i % 10).is 4 &&& (i % 100).isNot 14),
    (.one, n.is 1)]⟩,
  ⟨["sv"], [
    (.one, (i % 10).oneOf [1, 2] &&& (i % 100).isNot 11 &&& (i % 100).isNot 12)]⟩,
  ⟨["tk"], [
    (.few, (i % 10).oneOf [6, 9] ||| n.is 10)]⟩,
  ⟨["uk"], [
    (.few, (i % 10).is 3 &&& (i % 100).isNot 13)]⟩]

end Phrasebook.Plural.Cldr
