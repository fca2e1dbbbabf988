import Metrology.Catalog.Entry

/-!
Units of derived quantities. Each is a multiple of a product of powers of base units.
-/

namespace Metrology.Catalog

def squareFoot : Float := 0.09290304
def cubicInch : Float := 1.6387064e-5
def squareInch : Float := 0.00064516
def squareCentimeter : Float := 1e-4

def areas : List (Definition Float) :=
  Entry.definitions .area (powers [(.length, 2)]) [
    { symbol := "ha", factor := 1e4, longNames := ["hectare", "hectares"] },
    { symbol := "are", factor := 100 },
    { symbol := "acre", factor := squareFoot * 43560, longNames := ["acres"] }
  ]

def volumes : List (Definition Float) :=
  Entry.definitions .volume (powers [(.length, 3)]) [
    { symbol := "L", factor := 1e-3, aliases := ["l"], longNames := ["liter", "liters", "litre", "litres"],
      siPrefixes := [.mega, .kilo, .hecto, .deci, .centi, .milli, .micro] },
    { symbol := "cc", factor := 1e-6 },
    { symbol := "gal", factor := cubicInch * 231, longNames := ["gallon", "gallons"] },
    { symbol := "qt", factor := cubicInch * 57.75, longNames := ["quart", "quarts"] },
    { symbol := "floz", factor := cubicInch * 1.8046875, longNames := ["fluid_ounce"] },
    { symbol := "bbl", factor := cubicInch * 9702, longNames := ["barrel", "barrels"] }
  ]

def velocities : List (Definition Float) :=
  Entry.definitions .velocity (powers [(.length, 1), (.time, -1)]) [
    { symbol := "kph", factor := 1000 / 3600 },
    { symbol := "mph", factor := 1609.344 / 3600 },
    { symbol := "kn", factor := 1852 / 3600, longNames := ["knot", "knots"] }
  ]

def standardGravity : Float := 9.80665

def accelerations : List (Definition Float) :=
  Entry.definitions .acceleration (powers [(.length, 1), (.time, -2)]) [
    { symbol := "g_n", factor := standardGravity, longNames := ["standard_gravity"] },
    { symbol := "Gal", factor := 1e-2 }
  ]

-- The rotation per minute is a frequency; angles do not count.
def frequencies : List (Definition Float) :=
  Entry.definitions .frequency (powers [(.time, -1)]) [
    { symbol := "Hz", longNames := ["hertz"], siPrefixes := SiPrefix.all },
    { symbol := "rpm", factor := 1 / 60 },
    { symbol := "Bq", longNames := ["becquerel"] }
  ]

def poundForce : Float := 0.45359237 * standardGravity

def forces : List (Definition Float) :=
  Entry.definitions .force (powers [(.mass, 1), (.length, 1), (.time, -2)]) [
    { symbol := "N", longNames := ["newton", "newtons"], siPrefixes := SiPrefix.all },
    { symbol := "lbf", factor := poundForce },
    { symbol := "kgf", factor := standardGravity },
    { symbol := "dyn", factor := 1e-5, longNames := ["dyne"] }
  ]

def energyPowers : Dimensions :=
  powers [(.mass, 1), (.length, 2), (.time, -2)]

def energies : List (Definition Float) :=
  Entry.definitions .energy energyPowers [
    { symbol := "J", longNames := ["joule", "joules"], siPrefixes := SiPrefix.all },
    { symbol := "cal", factor := 4.184, longNames := ["calorie", "calories"], siPrefixes := [.kilo] },
    { symbol := "eV", factor := 1.602176634e-19, longNames := ["electronvolt"], siPrefixes := SiPrefix.all },
    { symbol := "BTU", factor := 1055.05585262, aliases := ["Btu"] },
    { symbol := "erg", factor := 1e-7 }
  ]

def powerUnits : List (Definition Float) :=
  Entry.definitions .power (powers [(.mass, 1), (.length, 2), (.time, -3)]) [
    { symbol := "W", longNames := ["watt", "watts"], siPrefixes := SiPrefix.all },
    { symbol := "hp", factor := 745.6998715822702, longNames := ["horsepower"] }
  ]

def powerOverTime : List (Definition Float) :=
  Entry.definitions .energy energyPowers [
    { symbol := "Wh", factor := 3600, longNames := ["watt_hour", "watt_hours"],
      siPrefixes := [.tera, .giga, .mega, .kilo, .milli] }
  ]

def standardAtmosphere : Float := 101325

def pressures : List (Definition Float) :=
  Entry.definitions .pressure (powers [(.mass, 1), (.length, -1), (.time, -2)]) [
    { symbol := "Pa", longNames := ["pascal", "pascals"], siPrefixes := SiPrefix.all },
    { symbol := "bar", factor := 1e5, siPrefixes := [.kilo, .mega, .milli] },
    { symbol := "atm", factor := standardAtmosphere, longNames := ["atmosphere"] },
    { symbol := "Torr", factor := standardAtmosphere / 760, aliases := ["torr"] },
    { symbol := "mmHg", factor := 133.322387415 },
    { symbol := "inHg", factor := 3386.389 },
    { symbol := "psi", factor := poundForce / squareInch, siPrefixes := [.kilo] },
    { symbol := "at", factor := standardGravity / squareCentimeter }
  ]

def charges : List (Definition Float) :=
  Entry.definitions .electricity (powers [(.current, 1), (.time, 1)]) [
    { symbol := "C", longNames := ["coulomb", "coulombs"], siPrefixes := SiPrefix.all },
    { symbol := "Ah", factor := 3600, longNames := ["amp_hour"], siPrefixes := [.kilo, .milli] }
  ]

def electric (mass length time current : Int) (e : Entry) (valid : e.IsValid := by decide +kernel) : Definition Float :=
  e.definition .electricity (powers [(.mass, mass), (.length, length), (.time, time), (.current, current)]) valid

def electricUnits : List (Definition Float) :=
  [
    electric 1 2 (-3) (-1) { symbol := "V", longNames := ["volt", "volts"], siPrefixes := SiPrefix.all },
    electric 1 2 (-3) (-2) { symbol := "Ω", aliases := ["ohm"], longNames := ["ohms"], siPrefixes := SiPrefix.all },
    electric (-1) (-2) 3 2 { symbol := "S", longNames := ["siemens"], siPrefixes := SiPrefix.all },
    electric (-1) (-2) 4 2 { symbol := "F", longNames := ["farad", "farads"], siPrefixes := SiPrefix.all },
    electric 1 2 (-2) (-2) { symbol := "H", longNames := ["henry"], siPrefixes := SiPrefix.all },
    electric 1 2 (-2) (-1) { symbol := "Wb", longNames := ["weber"], siPrefixes := SiPrefix.all }
  ]

end Metrology.Catalog
