import Metrology.Catalog.Entry

/-!
Units of the base quantities, and numbers without dimension.
-/

namespace Metrology.Catalog

def lengths : List (Definition Float) :=
  Entry.definitions .length (.single .length) [
    { symbol := "m", longNames := ["meter", "meters", "metre", "metres"], siPrefixes := SiPrefix.all },
    { symbol := "in", factor := 0.0254, longNames := ["inch", "inches"] },
    { symbol := "ft", factor := 0.3048, longNames := ["foot", "feet"] },
    { symbol := "yd", factor := 0.9144, longNames := ["yard", "yards"] },
    { symbol := "mi", factor := 1609.344, longNames := ["mile", "miles"] },
    { symbol := "nmi", factor := 1852, longNames := ["nautical_mile"] },
    { symbol := "Å", factor := 1e-10, longNames := ["angstrom"] },
    { symbol := "au", factor := 149597870700, longNames := ["astronomical_unit"] },
    { symbol := "ly", factor := 9460730472580800, longNames := ["light_year"] }
  ]

-- The base unit is the kilogram, which comes in as a prefixed gram.
def masses : List (Definition Float) :=
  Entry.definitions .mass (.single .mass) [
    { symbol := "g", factor := 1e-3, longNames := ["gram", "grams", "gramme"], siPrefixes := SiPrefix.all },
    { symbol := "t", factor := 1000, longNames := ["tonne", "tonnes", "metric_ton"], siPrefixes := SiPrefix.large },
    { symbol := "lb", factor := 0.45359237, aliases := ["lbm"], longNames := ["pound", "pounds"] },
    { symbol := "oz", factor := 0.028349523125, longNames := ["ounce", "ounces"] },
    { symbol := "st", factor := 6.35029318, longNames := ["stone"] },
    { symbol := "slug", factor := 14.593902937206364 },
    { symbol := "gr", factor := 6.479891e-5, longNames := ["grain"] }
  ]

def times : List (Definition Float) :=
  Entry.definitions .time (.single .time) [
    { symbol := "s", aliases := ["sec"], longNames := ["second", "seconds"], siPrefixes := SiPrefix.all },
    { symbol := "min", factor := 60, longNames := ["minute", "minutes"] },
    { symbol := "h", factor := 3600, aliases := ["hr"], longNames := ["hour", "hours"] },
    { symbol := "d", factor := 86400, longNames := ["day", "days"] },
    { symbol := "wk", factor := 604800, longNames := ["week", "weeks"] },
    { symbol := "yr", factor := 31536000, longNames := ["year", "years"] }
  ]

def currents : List (Definition Float) :=
  Entry.definitions .current (.single .current) [
    { symbol := "A", longNames := ["ampere", "amperes", "amp"], siPrefixes := SiPrefix.all }
  ]

def fahrenheitDegree : Float := 5 / 9

-- Absolute scales stand alone; the intervals `degK` to `degR` combine with other units.
def temperatures : List (Definition Float) :=
  Entry.definitions .temperature (.single .temperature) [
    { symbol := "K", longNames := ["kelvin"], siPrefixes := SiPrefix.all },
    { symbol := "celsius", offset := 273.15, aliases := ["°C", "degree_Celsius"] },
    { symbol := "fahrenheit", factor := fahrenheitDegree, offset := 459.67 * fahrenheitDegree,
      aliases := ["°F", "degree_Fahrenheit"] },
    { symbol := "rankine", factor := fahrenheitDegree, aliases := ["°R", "degree_Rankine"] },
    { symbol := "degK" },
    { symbol := "degC", aliases := ["delta_degC"] },
    { symbol := "degF", factor := fahrenheitDegree, aliases := ["delta_degF"] },
    { symbol := "degR", factor := fahrenheitDegree, aliases := ["delta_degR"] }
  ]

def amounts : List (Definition Float) :=
  Entry.definitions .amount (.single .amount) [
    { symbol := "mol", longNames := ["mole", "moles"], siPrefixes := SiPrefix.all }
  ]

def luminousIntensities : List (Definition Float) :=
  Entry.definitions .luminousIntensity (.single .luminousIntensity) [
    { symbol := "cd", longNames := ["candela"], siPrefixes := SiPrefix.all }
  ]

def pi : Float := 3.141592653589793

def ratios : List (Definition Float) :=
  Entry.definitions .ratio 0 [
    { symbol := "rad", longNames := ["radian", "radians"], siPrefixes := [.milli, .micro] },
    { symbol := "deg", factor := pi / 180, aliases := ["°"], longNames := ["degree", "degrees"] },
    { symbol := "arcmin", factor := pi / 10800, longNames := ["arcminute"] },
    { symbol := "arcsec", factor := pi / 648000, longNames := ["arcsecond"] },
    { symbol := "grad", factor := pi / 200, longNames := ["gradian", "gon"] },
    { symbol := "rev", factor := 2 * pi, aliases := ["turn"], longNames := ["revolution", "rotation"] },
    { symbol := "sr", longNames := ["steradian"] },
    { symbol := "%", factor := 1e-2, longNames := ["percent"] },
    { symbol := "‰", factor := 1e-3, longNames := ["permille"] },
    { symbol := "ppm", factor := 1e-6 },
    { symbol := "ppb", factor := 1e-9 }
  ]

end Metrology.Catalog
