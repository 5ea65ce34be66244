namespace Kitchen.Names

def variableStart : String := "CYRK"

def configPath : String := "CYRK_CONFIG_PATH"

def environment : String := "CYRK_ENV"

def workerThread : String := "cyrk-worker"

def stationThread : String := "cyrk-station"

end Kitchen.Names
